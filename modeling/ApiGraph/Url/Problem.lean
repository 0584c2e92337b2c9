/-!
# What can be wrong with a URL

The reasons why a text is no absolute URL, with their wording.
-/

namespace ApiGraph.Url

/-- Why a text is no absolute URL. -/
inductive Problem where
  | noScheme
  | emptyHost
  | port
  | ipv4
  | ipv6
  /-- The domain of a scheme whose hosts are domains. -/
  | domain
  /-- A character in the host of any other scheme. -/
  | hostCharacter
  deriving DecidableEq, Repr

/-- The wording. -/
def Problem.message : Problem → String
  | .noScheme => "relative URL without a base"
  | .emptyHost => "empty host"
  | .port => "invalid port number"
  | .ipv4 => "invalid IPv4 address"
  | .ipv6 => "invalid IPv6 address"
  | .domain => "invalid international domain name"
  | .hostCharacter => "invalid domain character"

end ApiGraph.Url
