import ApiGraph.Proofs.Generation.Problems
import ApiGraph.Proofs.OpenApi.Operations
import ApiGraph.Proofs.OpenApi.Parameters

/-!
# References of operations

A reference leads to a component, to nothing, or to a component that is itself a reference and is
not followed any further (`Components.Resolves`, `Components.Dangles`, `Components.Chains`).  An
operation refers to parameters, to its body and to its responses, of which those count that are
looked at: the ones of success (`Succeeds`), up to the first with a JSON schema
(`PlacedOperation.Refers`).

* `lookUp_cases`: looking up a reference tells which of the three it is.
* `explains_endpoint`: if there is no endpoint for an operation, one of these references is to
  blame.
* `resolves_of_endpoint`: if there is one, all of them lead to components.
-/

namespace ApiGraph.OpenApi

open ApiGraph.Generation (bind_eq_ok bind_eq_error map_eq_ok Reports)

/-! ## Where references lead -/

/-- The kinds of components that are referred to. -/
inductive Section where
  | schemas
  | parameters
  | requestBodies
  | responses
  deriving DecidableEq, Repr

/-- The name of the kind in references. -/
def Section.name : Section → String
  | .schemas => "schemas"
  | .parameters => "parameters"
  | .requestBodies => "requestBodies"
  | .responses => "responses"

def RefOr.isReference {α : Type} : RefOr α → Bool
  | .reference _ => true
  | .item _ => false

namespace Components

/-- Whether the component is itself a reference, if there is one of that kind and name. -/
def isReference? (c : Components) : Section → String → Option Bool
  | .schemas, name => (c.schemas.get? name).map RefOr.isReference
  | .parameters, name => (c.parameters.get? name).map RefOr.isReference
  | .requestBodies, name => (c.requestBodies.get? name).map RefOr.isReference
  | .responses, name => (c.responses.get? name).map RefOr.isReference

/-- The reference leads to a component that is no reference. -/
def Resolves (c : Components) (kind : Section) (reference : String) : Prop :=
  ∃ name, componentName? kind.name reference = some name ∧ c.isReference? kind name = some false

/-- The reference does not have the form of one to a component of the kind, or there is no component
of its name. -/
def Dangles (c : Components) (kind : Section) (reference : String) : Prop :=
  ∀ name, componentName? kind.name reference = some name → c.isReference? kind name = none

/-- The reference leads to the component, which is itself a reference. -/
def Chains (c : Components) (kind : Section) (reference name : String) : Prop :=
  componentName? kind.name reference = some name ∧ c.isReference? kind name = some true

theorem Dangles.not_resolves {c : Components} {kind : Section} {reference : String}
    (h : c.Dangles kind reference) : ¬ c.Resolves kind reference := by
  rintro ⟨name, hname, hitem⟩
  exact Option.some_ne_none _ (hitem.symm.trans (h name hname))

end Components

/-- A reference that satisfies `met` is the problem. -/
inductive Explains (c : Components) (met : Section → String → Prop) : Problem → Prop
  | dangling {kind : Section} {reference : String} (hmet : met kind reference)
      (h : c.Dangles kind reference) : Explains c met (.unresolvedReference reference)
  | chained {kind : Section} {reference name : String} (hmet : met kind reference)
      (h : c.Chains kind reference name) : Explains c met (.referenceToReference name)

variable {c : Components} {met met' : Section → String → Prop}

theorem Explains.mono {p : Problem} (h : Explains c met p)
    (hmet : ∀ kind reference, met kind reference → met' kind reference) : Explains c met' p := by
  cases h with
  | dangling hhere h => exact .dangling (hmet _ _ hhere) h
  | chained hhere h => exact .chained (hmet _ _ hhere) h

/-- Looking up a reference tells where it leads. -/
theorem lookUp_cases {α : Type} {kind : Section} {entries : Dictionary (RefOr α)}
    (hentries : ∀ name, c.isReference? kind name = (entries.get? name).map RefOr.isReference)
    (reference : String) :
    (∃ found, lookUp kind.name entries reference = .ok found ∧ c.Resolves kind reference) ∨
      (lookUp kind.name entries reference = .error (.unresolvedReference reference) ∧
        c.Dangles kind reference) ∨
      ∃ name, lookUp kind.name entries reference = .error (.referenceToReference name) ∧
        c.Chains kind reference name := by
  unfold lookUp
  cases hname : componentName? kind.name reference with
  | none =>
    refine Or.inr (Or.inl ⟨rfl, fun name hsome => ?_⟩)
    rw [hname] at hsome
    exact nomatch hsome
  | some name =>
    have hkind := hentries name
    dsimp only
    cases hentry : entries.get? name with
    | none =>
      refine Or.inr (Or.inl ⟨rfl, fun name' hname' => ?_⟩)
      rw [hname] at hname'
      rw [← Option.some.inj hname', hkind, hentry]
      rfl
    | some entry =>
      rw [hentry] at hkind
      cases entry with
      | reference target => exact Or.inr (Or.inr ⟨name, rfl, hname, hkind⟩)
      | item value => exact Or.inl ⟨_, rfl, name, hname, hkind⟩

section LookUps

variable {α : Type} (kind : Section) {entries : Dictionary (RefOr α)} {reference : String}
  (hentries : ∀ name, c.isReference? kind name = (entries.get? name).map RefOr.isReference)
include hentries

theorem resolves_of_lookUp {found : String × α}
    (h : lookUp kind.name entries reference = .ok found) : c.Resolves kind reference := by
  rcases lookUp_cases hentries reference with ⟨_, -, hresolves⟩ | ⟨herror, -⟩ | ⟨_, herror, -⟩
  · exact hresolves
  · exact nomatch h.symm.trans herror
  · exact nomatch h.symm.trans herror

theorem explains_lookUp (hmet : met kind reference) :
    Reports (Explains c met) (lookUp kind.name entries reference) := by
  rcases lookUp_cases hentries reference with ⟨_, hok, -⟩ | ⟨herror, h⟩ | ⟨_, herror, h⟩
  · rw [hok]
    exact .ok _
  · rw [herror]
    exact .error (.dangling hmet h)
  · rw [herror]
    exact .error (.chained hmet h)

end LookUps

/-! ## The parts of an operation -/

namespace Endpoint

variable {p : RefOr Parameter} {r : RefOr Response}

theorem explains_resolveParameter
    (hmet : ∀ reference, p = .reference reference → met .parameters reference) :
    Reports (Explains c met) (resolveParameter c p) := by
  cases p with
  | reference target =>
    exact (explains_lookUp .parameters (fun _ => rfl) (hmet target rfl)).map
  | item p => exact .ok p

theorem explains_follow {ps : List (RefOr Parameter)}
    (hmet : ∀ reference, .reference reference ∈ ps → met .parameters reference) :
    Reports (Explains c met) (follow c ps) := by
  refine Reports.mapM fun p hp => explains_resolveParameter fun reference hreference => ?_
  exact hmet reference (hreference ▸ hp)

/-- All references of parameters that can be followed lead to components. -/
theorem resolves_of_follow {ps : List (RefOr Parameter)} {found : List Parameter}
    (h : follow c ps = .ok found) {reference : String} (hmem : .reference reference ∈ ps) :
    c.Resolves .parameters reference := by
  obtain ⟨p, -, hp⟩ := exists_of_forall₂ (forall₂_of_mapM h) hmem
  obtain ⟨_, hlookUp, -⟩ := map_eq_ok.mp hp
  exact resolves_of_lookUp .parameters (fun _ => rfl) hlookUp

theorem explains_resolveBody {body : Option (RefOr RequestBody)}
    (hmet : ∀ reference, body = some (.reference reference) → met .requestBodies reference) :
    Reports (Explains c met) (resolveBody c body) := by
  cases body with
  | none => exact .ok none
  | some body =>
    cases body with
    | item b => exact .ok _
    | reference target =>
      exact Reports.bind
        (explains_lookUp .requestBodies (fun _ => rfl) (hmet target rfl)).map
          fun _ _ => .ok _

/-- The response can be followed and has a JSON schema. -/
def AnswersJson (c : Components) (r : RefOr Response) : Prop :=
  ∃ found s, resolveResponse c r = .ok found ∧ found.content.jsonSchema? = some s

/-- The status is one of success: a code from 200 to 299, or all of them together. -/
inductive Succeeds : Status → Prop
  | code {n : Nat} (hfrom : 200 ≤ n) (hto : n ≤ 299) : Succeeds (.code n)
  | range : Succeeds (.range 2)

theorem isSuccess_iff {status : Status} : status.isSuccess = true ↔ Succeeds status := by
  cases status with
  | code n =>
    rw [Status.isSuccess, Bool.and_eq_true, decide_eq_true_eq, decide_eq_true_eq]
    exact ⟨fun h => .code h.1 (Nat.le_of_lt_succ h.2), fun (.code hfrom hto) =>
      ⟨hfrom, Nat.lt_succ_of_le hto⟩⟩
  | range hundreds =>
    rw [Status.isSuccess, beq_iff_eq]
    exact ⟨fun h => h ▸ .range, fun (.range) => rfl⟩

/-- The response is looked at: it is one of success, and no response of success before it has a JSON
schema. -/
inductive Considered (c : Components) : List (Status × RefOr Response) → RefOr Response → Prop
  | here {status : Status} {r : RefOr Response} {rest : List (Status × RefOr Response)}
      (hsuccess : Succeeds status) : Considered c ((status, r) :: rest) r
  | later {status : Status} {r x : RefOr Response} {rest : List (Status × RefOr Response)}
      (hnone : Succeeds status → ¬ AnswersJson c r) (h : Considered c rest x) :
      Considered c ((status, r) :: rest) x

theorem explains_resolveResponse
    (hmet : ∀ reference, r = .reference reference → met .responses reference) :
    Reports (Explains c met) (resolveResponse c r) := by
  cases r with
  | reference target =>
    exact (explains_lookUp .responses (fun _ => rfl) (hmet target rfl)).map
  | item r => exact .ok r

theorem explains_firstAnswer {responses : List (Status × RefOr Response)}
    (hmet : ∀ reference, Considered c responses (.reference reference) →
      met .responses reference) :
    Reports (Explains c met) (firstAnswer c responses) := by
  induction responses with
  | nil => exact .ok none
  | cons head rest ih =>
    obtain ⟨status, r⟩ := head
    rw [firstAnswer]
    split
    · rename_i hsuccess
      refine (explains_resolveResponse fun reference hr => ?_).bind fun found hfound => ?_
      · exact hmet reference (hr ▸ .here (isSuccess_iff.mp hsuccess))
      · split
        · exact .ok _
        · rename_i hnone
          refine ih fun reference h => hmet reference (.later (fun _ => ?_) h)
          rintro ⟨found', s, hfound', hs⟩
          obtain rfl := Except.ok.inj (hfound'.symm.trans hfound)
          exact absurd (hs.symm.trans hnone) (Option.some_ne_none s)
    · rename_i hfailure
      refine ih fun reference h => hmet reference (.later (fun hsuccess => ?_) h)
      exact absurd (isSuccess_iff.mpr hsuccess) hfailure

/-- If an answer is found or there is none, all responses that are looked at can be followed. -/
theorem exists_of_considered {responses : List (Status × RefOr Response)}
    {answer : Option (RefOr Schema)} (h : firstAnswer c responses = .ok answer)
    (hconsidered : Considered c responses r) : ∃ found, resolveResponse c r = .ok found := by
  induction hconsidered with
  | here hsuccess =>
    rw [firstAnswer, if_pos (isSuccess_iff.mpr hsuccess)] at h
    obtain ⟨found, hfound, -⟩ := bind_eq_ok.mp h
    exact ⟨found, hfound⟩
  | later hnone _ ih =>
    rw [firstAnswer] at h
    split at h
    · rename_i hsuccess
      obtain ⟨found, hfound, h⟩ := bind_eq_ok.mp h
      split at h
      · rename_i s hs
        exact absurd ⟨found, s, hfound, hs⟩ (hnone (isSuccess_iff.mp hsuccess))
      · exact ih h
    · exact ih h

end Endpoint

/-! ## Operations -/

open Endpoint

/-- The operation refers to a component of the kind in this way, for one of its parts. -/
inductive PlacedOperation.Refers (c : Components) (x : PlacedOperation) : Section → String → Prop
  | parameter {reference : String}
      (h : .reference reference ∈ x.operation.parameters ∨ .reference reference ∈ x.shared) :
      Refers c x .parameters reference
  | body {reference : String} (h : x.operation.requestBody = some (.reference reference)) :
      Refers c x .requestBodies reference
  | response {reference : String}
      (h : Considered c x.operation.responses (.reference reference)) :
      Refers c x .responses reference

variable {x : PlacedOperation}

/-- If an operation has no endpoint, one of its references is to blame. -/
theorem explains_endpoint (x : PlacedOperation) :
    Reports (Explains c (x.Refers c)) (x.endpoint c) := by
  refine (explains_resolveBody fun _ => .body).bind fun body _ => ?_
  refine (explains_firstAnswer fun _ => .response).bind fun answer _ => ?_
  refine Reports.bind ?_ fun own _ => Reports.bind ?_ fun _ _ => .ok _
  · rw [ownParameters_eq]
    exact (explains_follow fun _ h => .parameter (Or.inl h)).map
  · rw [inheritParameters_eq]
    exact (explains_follow fun _ h => .parameter (Or.inr h)).map

/-- If an operation has an endpoint, all of its references lead to components. -/
theorem resolves_of_endpoint {e : Endpoint} (h : x.endpoint c = .ok e) {kind : Section}
    {reference : String} (hrefers : x.Refers c kind reference) : c.Resolves kind reference := by
  obtain ⟨body, hbody, h⟩ := bind_eq_ok.mp h
  obtain ⟨answer, hanswer, h⟩ := bind_eq_ok.mp h
  obtain ⟨own, hown, h⟩ := bind_eq_ok.mp h
  obtain ⟨all, hall, -⟩ := bind_eq_ok.mp h
  cases hrefers with
  | parameter hmem =>
    rcases hmem with hmem | hmem
    · rw [ownParameters_eq] at hown
      obtain ⟨_, hfollow, -⟩ := map_eq_ok.mp hown
      exact resolves_of_follow hfollow hmem
    · rw [inheritParameters_eq] at hall
      obtain ⟨_, hfollow, -⟩ := map_eq_ok.mp hall
      exact resolves_of_follow hfollow hmem
  | body hbodyIs =>
    rw [hbodyIs] at hbody
    obtain ⟨_, hfound, -⟩ := bind_eq_ok.mp hbody
    obtain ⟨_, hlookUp, -⟩ := map_eq_ok.mp hfound
    exact resolves_of_lookUp .requestBodies (fun _ => rfl) hlookUp
  | response hconsidered =>
    obtain ⟨_, hfound⟩ := exists_of_considered hanswer hconsidered
    obtain ⟨_, hlookUp, -⟩ := map_eq_ok.mp hfound
    exact resolves_of_lookUp .responses (fun _ => rfl) hlookUp

end ApiGraph.OpenApi
