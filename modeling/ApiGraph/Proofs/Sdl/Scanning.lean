import ApiGraph.GraphQL.Sdl.Printer
import ApiGraph.GraphQL.Sdl.Token
import Mathlib.Data.List.TakeWhile

/-!
# Scanning a text piece by piece

`Token.ofText` bounds the number of its steps by the length of the text.  The bound does not show:
a token is never longer than the text, so `ofText_cons` gives the tokens of a text from those of
what stands behind its first token, and the lemmas after it say this for the pieces that a schema is
printed with: blanks, names, punctuation and descriptions.

A description is printed as a block string in which three quotes have a backslash before them.
Whatever stands in it, the block string ends where the printer ends it (`scanBlock_body`), unless it
holds a character that cannot be read at all.

* `ofText_skip`, `ofText_name`, `ofText_punctuation`, `ofText_describe`: the pieces.
-/

namespace ApiGraph.GraphQL.Sdl

namespace Token

/-! ## No token is longer than the text -/

theorem length_spanDigits_le (cs : List Char) : (spanDigits cs).2.length ≤ cs.length :=
  List.length_dropWhile_le _ _

theorem length_spanFraction_le (cs : List Char) : (spanFraction cs).2.length ≤ cs.length := by
  unfold spanFraction
  split
  · rename_i r
    have hr := length_spanDigits_le r
    split
    · exact le_refl _
    · exact Nat.le_succ_of_le hr
  · exact le_refl _

theorem length_spanSign_le (cs : List Char) : (spanSign cs).2.length ≤ cs.length := by
  unfold spanSign
  split
  · exact Nat.le_succ _
  · exact Nat.le_succ _
  · exact le_refl _

theorem length_spanExponent_le (cs : List Char) : (spanExponent cs).2.length ≤ cs.length := by
  unfold spanExponent
  split
  · rename_i c r
    have hsign := length_spanSign_le r
    have hdigits := length_spanDigits_le (spanSign r).2
    dsimp only
    split
    · split
      · exact le_refl _
      · exact Nat.le_succ_of_le (le_trans hdigits hsign)
    · exact le_refl _
  · exact le_refl _

/-- Behind a number that can be read there is less than before it. -/
theorem length_scanNumber_lt {sign cs rest : List Char} {t : Token}
    (h : scanNumber sign cs = (t, rest)) (ht : t ≠ .malformed) : rest.length < cs.length := by
  unfold scanNumber at h
  split at h
  rename_i whole r hwhole
  have hlt : whole ≠ [] → r.length < cs.length := by
    intro hne
    split at hwhole
    · obtain ⟨-, rfl⟩ := Prod.mk.inj hwhole
      exact Nat.lt_succ_self _
    · obtain ⟨hw, hr⟩ := Prod.mk.inj hwhole
      have hsum := congrArg List.length
        (List.takeWhile_append_dropWhile (p := Char.isDigit) (l := cs))
      rw [hw, hr, List.length_append] at hsum
      have hpos := List.length_pos_iff.mpr hne
      omega
  have hfraction := length_spanFraction_le r
  have hexponent := length_spanExponent_le (spanFraction r).2
  dsimp only at h
  split at h
  · exact absurd (Prod.mk.inj h).1.symm ht
  · rename_i hok
    have hne : whole ≠ [] := by
      rintro rfl
      exact hok (by simp)
    have hr := hlt hne
    split at h <;>
    · obtain ⟨-, rfl⟩ := Prod.mk.inj h
      omega

theorem length_scanBlock_le {cs raw rest : List Char} (h : scanBlock cs = .ok (raw, rest)) :
    rest.length ≤ cs.length := by
  fun_induction scanBlock cs generalizing raw rest with
  | case1 r =>
    obtain ⟨-, rfl⟩ := Prod.mk.inj (Except.ok.inj h)
    simp only [List.length_cons]
    omega
  | case2 r ih | case3 c r _ _ _ ih =>
    cases hr : scanBlock r with
    | error t =>
      rw [hr] at h
      exact absurd h (by simp [Except.map])
    | ok found =>
      rw [hr] at h
      obtain ⟨-, rfl⟩ := Prod.mk.inj (Except.ok.inj h)
      have hle := ih hr
      simp only [List.length_cons]
      omega
  | case4 | case5 => exact absurd h (by simp)

theorem length_scanString_le {cs raw rest : List Char} (h : scanString cs = some (raw, rest)) :
    rest.length ≤ cs.length := by
  fun_induction scanString cs generalizing raw rest with
  | case1 r =>
    obtain ⟨-, rfl⟩ := Prod.mk.inj (Option.some.inj h)
    exact Nat.le_succ _
  | case2 a b c d r _ ih | case4 e r _ _ ih | case6 c r _ _ _ _ ih =>
    obtain ⟨found, hr, hfound⟩ := Option.map_eq_some_iff.mp h
    obtain ⟨-, rfl⟩ := Prod.mk.inj hfound
    have hle := ih hr
    simp only [List.length_cons]
    omega
  | case3 | case5 | case7 | case8 => exact absurd h (by simp)

/-- Behind a token there is less than before it. -/
theorem length_scan_le {c : Char} {r rest : List Char} {t : Token} (h : scan (c :: r) = (t, rest))
    (ht : t ≠ .malformed) : rest.length ≤ r.length := by
  unfold scan at h
  split at h
  · rename_i body heq
    obtain ⟨-, rfl⟩ := List.cons.inj heq
    split at h
    · rename_i raw left hblock
      obtain ⟨-, rfl⟩ := Prod.mk.inj h
      have hle := length_scanBlock_le hblock
      simp only [List.length_cons]
      omega
    · obtain ⟨-, rfl⟩ := Prod.mk.inj h
      exact Nat.zero_le _
  · rename_i body _ heq
    obtain ⟨-, rfl⟩ := List.cons.inj heq
    split at h
    · rename_i raw left hstring
      obtain ⟨-, rfl⟩ := Prod.mk.inj h
      exact length_scanString_le hstring
    · exact absurd (Prod.mk.inj h).1.symm ht
  · rename_i body heq
    obtain ⟨-, rfl⟩ := List.cons.inj heq
    obtain ⟨-, rfl⟩ := Prod.mk.inj h
    simp only [List.length_cons]
    omega
  · rename_i body heq
    obtain ⟨-, rfl⟩ := List.cons.inj heq
    exact (length_scanNumber_lt h ht).le
  · rename_i first body _ _ _ heq
    obtain ⟨rfl, rfl⟩ := List.cons.inj heq
    split at h
    · obtain ⟨-, rfl⟩ := Prod.mk.inj h
      exact List.length_dropWhile_le _ _
    · split at h
      · exact Nat.le_of_lt_succ (length_scanNumber_lt h ht)
      · split at h
        · obtain ⟨-, rfl⟩ := Prod.mk.inj h
          exact le_refl _
        · exact absurd (Prod.mk.inj h).1.symm ht
  · rename_i heq
    exact absurd heq (by simp)

/-! ## The bound does not show -/

/-- What is read of a text that begins with a token. -/
def afterToken (next : List Char → List Token) : Token × List Char → List Token
  | (.malformed, _) => [.malformed]
  | (.unreadable, _) => [.unreadable]
  | (t, rest) => t :: next rest

theorem scanAll_succ (n : Nat) (c : Char) (r : List Char) :
    scanAll (n + 1) (c :: r) =
      if isIgnored c then scanAll n r
      else if c == '#' then scanAll n (r.dropWhile isCommentChar)
      else afterToken (scanAll n) (scan (c :: r)) := by
  rw [scanAll]
  split
  · rfl
  · split
    · rfl
    · rcases scan (c :: r) with ⟨t, rest⟩
      cases t <;> rfl

theorem afterToken_congr {next next' : List Char → List Token} {c : Char} {r : List Char}
    (h : ∀ rest, rest.length ≤ r.length → next rest = next' rest) :
    afterToken next (scan (c :: r)) = afterToken next' (scan (c :: r)) := by
  rcases hs : scan (c :: r) with ⟨t, rest⟩
  by_cases ht : t = .malformed
  · subst ht
    rfl
  · have heq := h rest (length_scan_le hs ht)
    cases t <;> simp only [afterToken, heq]

theorem scanAll_eq_scanAll : ∀ {n m : Nat} {cs : List Char}, cs.length ≤ n → cs.length ≤ m →
    scanAll n cs = scanAll m cs := by
  intro n
  induction n with
  | zero =>
    intro m cs hn _
    obtain rfl : cs = [] := List.length_eq_zero_iff.mp (Nat.le_zero.mp hn)
    cases m <;> rfl
  | succ n ih =>
    intro m cs hn hm
    match cs, m with
    | [], 0 => rfl
    | [], m + 1 => rfl
    | c :: r, m + 1 =>
      have hn' : r.length ≤ n := Nat.le_of_succ_le_succ hn
      have hm' : r.length ≤ m := Nat.le_of_succ_le_succ hm
      have hcomment := List.length_dropWhile_le isCommentChar r
      rw [scanAll_succ, scanAll_succ, ih hn' hm',
        ih (le_trans hcomment hn') (le_trans hcomment hm'),
        afterToken_congr fun rest hrest => ih (le_trans hrest hn') (le_trans hrest hm')]

theorem ofText_cons (c : Char) (r : List Char) :
    ofText (c :: r) =
      if isIgnored c then ofText r
      else if c == '#' then ofText (r.dropWhile isCommentChar)
      else afterToken ofText (scan (c :: r)) := by
  have hcomment := List.length_dropWhile_le isCommentChar r
  rw [ofText, List.length_cons, scanAll_succ, ofText, ofText,
    scanAll_eq_scanAll hcomment (le_refl _)]
  rw [afterToken_congr fun rest hrest => scanAll_eq_scanAll hrest (le_refl rest.length)]
  rfl

/-! ## Blanks, punctuation and names -/

theorem ofText_skip {c : Char} (hc : isIgnored c = true) (r : List Char) :
    ofText (c :: r) = ofText r := by
  rw [ofText_cons, if_pos hc]

theorem ofText_skipAll {cs : List Char} (hcs : cs.all isIgnored = true) (r : List Char) :
    ofText (cs ++ r) = ofText r := by
  induction cs with
  | nil => rfl
  | cons c cs ih =>
    rw [List.all_cons, Bool.and_eq_true] at hcs
    rw [List.cons_append, ofText_skip hcs.1, ih hcs.2]

theorem ofText_punctuation {c : Char} (hc : isPunctuation c = true) (r : List Char) :
    ofText (c :: r) = .punctuation c :: ofText r := by
  have hscan : isIgnored c = false ∧ (c == '#') = false ∧
      scan (c :: r) = (.punctuation c, r) := by
    simp only [isPunctuation, List.contains_eq_mem, List.mem_cons, List.not_mem_nil, or_false,
      decide_eq_true_eq] at hc
    rcases hc with rfl | rfl | rfl | rfl | rfl | rfl | rfl | rfl | rfl | rfl | rfl | rfl | rfl <;>
      exact ⟨rfl, rfl, rfl⟩
  rw [ofText_cons, hscan.1, hscan.2.1, hscan.2.2]
  rfl

/-- Does no name go on at the start of the text? -/
def EndsName (rest : List Char) : Prop := ∀ c ∈ rest.head?, isNameChar c = false

theorem endsName_cons {c : Char} (hc : isNameChar c = false) (r : List Char) :
    EndsName (c :: r) := by
  intro d hd
  obtain rfl : c = d := Option.some.inj hd
  exact hc

theorem isNameStart_of_isNameChar {c : Char} (hc : isNameChar c = true)
    (hdigit : c.isDigit = false) : isNameStart c = true := by
  rw [isNameChar, Bool.or_eq_true, Char.isAlphanum, Bool.or_eq_true, hdigit] at hc
  rw [isNameStart, Bool.or_eq_true]
  rcases hc with hc | hc | hc
  · exact Or.inl hc
  · exact Or.inr hc
  · exact absurd hc (by simp)

theorem scan_name {c : Char} (hc : isNameStart c = true) (r : List Char) :
    scan (c :: r) =
      (.name (String.ofList (c :: r.takeWhile isNameChar)), r.dropWhile isNameChar) := by
  unfold scan
  split
  · rename_i heq
    obtain ⟨rfl, -⟩ := List.cons.inj heq
    exact absurd hc (by decide)
  · rename_i heq
    obtain ⟨rfl, -⟩ := List.cons.inj heq
    exact absurd hc (by decide)
  · rename_i heq
    obtain ⟨rfl, -⟩ := List.cons.inj heq
    exact absurd hc (by decide)
  · rename_i heq
    obtain ⟨rfl, -⟩ := List.cons.inj heq
    exact absurd hc (by decide)
  · rename_i heq
    obtain ⟨rfl, rfl⟩ := List.cons.inj heq
    rw [if_pos hc]
  · rename_i heq
    exact absurd heq (by simp)

theorem not_isIgnored_of_isNameChar {c : Char} (hc : isNameChar c = true) :
    isIgnored c = false := by
  rw [Bool.eq_false_iff]
  intro hi
  simp only [isIgnored, Bool.or_eq_true, beq_iff_eq] at hi
  rcases hi with (((((rfl | rfl) | rfl) | rfl) | rfl) | rfl) | rfl <;> exact absurd hc (by decide)

theorem ofText_name {s : String} (hs : isName s = true) {rest : List Char}
    (hrest : EndsName rest) : ofText (s.toList ++ rest) = .name s :: ofText rest := by
  rw [isName] at hs
  cases hl : s.toList with
  | nil =>
    rw [hl] at hs
    exact absurd hs (by simp)
  | cons c r =>
    rw [hl] at hs
    simp only [Bool.and_eq_true, Bool.not_eq_true'] at hs
    obtain ⟨⟨hc, hdigit⟩, hr⟩ := hs
    have hall : ∀ d ∈ r, isNameChar d = true := List.all_eq_true.mp hr
    have hhash : (c == '#') = false := by
      rw [beq_eq_false_iff_ne]
      rintro rfl
      exact absurd hc (by decide)
    have htake : (r ++ rest).takeWhile isNameChar = r := by
      rw [List.takeWhile_append_of_pos hall]
      cases rest with
      | nil => simp
      | cons d rest => simp [hrest d rfl]
    have hdrop : (r ++ rest).dropWhile isNameChar = rest := by
      rw [List.dropWhile_append_of_pos hall]
      cases rest with
      | nil => rfl
      | cons d rest => simp [hrest d rfl]
    rw [List.cons_append, ofText_cons, not_isIgnored_of_isNameChar hc, hhash,
      scan_name (isNameStart_of_isNameChar hc hdigit), htake, hdrop, ← hl, String.ofList_toList]
    rfl

/-! ## Block strings -/

/-- Put something before what is read of a block string. -/
def prepend (cs : List Char) : Except Token (List Char × List Char) →
    Except Token (List Char × List Char) :=
  Except.map fun found => (cs ++ found.1, found.2)

theorem prepend_prepend (as bs : List Char) (e : Except Token (List Char × List Char)) :
    prepend as (prepend bs e) = prepend (as ++ bs) e := by
  cases e with
  | error t => rfl
  | ok found => simp [prepend, Except.map]

/-- A character that begins neither a delimiter nor an escaped one. -/
theorem scanBlock_cons {c : Char} {r : List Char} (hclose : c = '"' → ¬ ['"', '"'] <+: r)
    (hescape : c = '\\' → ¬ blockQuotes <+: r) :
    scanBlock (c :: r) =
      if isBlockChar c then prepend [c] (scanBlock r) else .error .unreadable := by
  rw [scanBlock.eq_def (c :: r)]
  split
  · rename_i heq
    obtain ⟨rfl, rfl⟩ := List.cons.inj heq
    exact absurd ⟨_, rfl⟩ (hclose rfl)
  · rename_i heq
    obtain ⟨rfl, rfl⟩ := List.cons.inj heq
    exact absurd ⟨_, rfl⟩ (hescape rfl)
  · rename_i heq
    obtain ⟨rfl, rfl⟩ := List.cons.inj heq
    rfl
  · rename_i heq
    exact absurd heq (by simp)

theorem scanBlock_cons_of_ne {c : Char} {r : List Char} (hquote : c ≠ '"') (hescape : c ≠ '\\')
    (hc : isBlockChar c = true) : scanBlock (c :: r) = prepend [c] (scanBlock r) := by
  rw [scanBlock_cons (fun h => absurd h hquote) (fun h => absurd h hescape), if_pos hc]

end Token

open Token

theorem indentLines_cons (level : Nat) (c : Char) (cs : List Char) :
    indentLines level (c :: cs) =
      (if c == '\n' then '\n' :: indentation level else [c]) ++ indentLines level cs := by
  rw [indentLines, List.flatMap_cons, indentLines]

/-- The text of a description as it is printed. -/
def describedText (level : Nat) (cs : List Char) : List Char :=
  indentLines level (escapeQuotes cs)

theorem describedText_cons (level : Nat) {c : Char} {cs : List Char}
    (h : c = '"' → ¬ ['"', '"'] <+: cs) :
    describedText level (c :: cs) =
      (if c == '\n' then '\n' :: indentation level else [c]) ++ describedText level cs := by
  have hcons : escapeQuotes (c :: cs) = c :: escapeQuotes cs := by
    rw [escapeQuotes.eq_def]
    split
    · rename_i heq
      obtain ⟨rfl, rfl⟩ := List.cons.inj heq
      exact absurd ⟨_, rfl⟩ (h rfl)
    · rename_i heq
      obtain ⟨rfl, rfl⟩ := List.cons.inj heq
      rfl
    · rename_i heq
      exact absurd heq (by simp)
  rw [describedText, hcons, indentLines_cons, describedText]

theorem describedText_quotes (level : Nat) (cs : List Char) :
    describedText level ('"' :: '"' :: '"' :: cs) =
      '\\' :: '"' :: '"' :: '"' :: describedText level cs := rfl

/-- A text that does not begin with a quote is printed as one that does not. -/
theorem head?_describedText_ne {cs tail : List Char} (level : Nat) (hcs : cs.head? ≠ some '"')
    (htail : tail.head? ≠ some '"') :
    (describedText level cs ++ tail).head? ≠ some '"' := by
  cases cs with
  | nil => exact htail
  | cons c cs =>
    have hc : c ≠ '"' := fun he => hcs (congrArg some he)
    rw [describedText_cons level fun he => absurd he hc]
    split
    · exact by simp
    · simpa using hc

/-- A text that does not begin with two quotes is printed as one that does not. -/
theorem not_quotes_prefix_describedText {cs tail : List Char} (level : Nat)
    (hcs : ¬ ['"', '"'] <+: cs) (htail : tail.head? ≠ some '"') :
    ¬ ['"', '"'] <+: describedText level cs ++ tail := by
  rintro ⟨r, hr⟩
  by_cases hhead : cs.head? = some '"'
  · obtain ⟨cs', rfl⟩ := List.head?_eq_some_iff.mp hhead
    have hnot : cs'.head? ≠ some '"' := by
      intro h
      obtain ⟨cs'', rfl⟩ := List.head?_eq_some_iff.mp h
      exact hcs ⟨cs'', rfl⟩
    have hquotes : ¬ ['"', '"'] <+: cs' := by
      rintro ⟨cs'', rfl⟩
      exact hnot rfl
    rw [describedText_cons level fun _ => hquotes] at hr
    have htext := (List.cons.inj hr).2
    exact head?_describedText_ne level hnot htail (congrArg List.head? htext.symm)
  · exact head?_describedText_ne level hhead htail (congrArg List.head? hr.symm)

/-- No printed text begins with three quotes, as they get a backslash. -/
theorem not_blockQuotes_prefix_describedText {cs tail : List Char} (level : Nat)
    (htail : tail.head? ≠ some '"') : ¬ blockQuotes <+: describedText level cs ++ tail := by
  rintro ⟨r, hr⟩
  by_cases hhead : cs.head? = some '"'
  · obtain ⟨cs', rfl⟩ := List.head?_eq_some_iff.mp hhead
    by_cases hquotes : ['"', '"'] <+: cs'
    · obtain ⟨cs'', rfl⟩ := hquotes
      exact absurd (List.cons.inj hr).1 (by decide)
    · rw [describedText_cons level fun _ => hquotes] at hr
      have htext := (List.cons.inj hr).2
      exact not_quotes_prefix_describedText level hquotes htail ⟨r, htext⟩
  · exact head?_describedText_ne level hhead htail (congrArg List.head? hr.symm)

namespace Token

/-- Tabs in front of a block string's text are part of it. -/
theorem scanBlock_indentation (level : Nat) (cs : List Char) :
    scanBlock (indentation level ++ cs) = prepend (indentation level) (scanBlock cs) := by
  induction level with
  | zero =>
    rcases h : scanBlock cs with t | found <;> simp [indentation, prepend, Except.map, h]
  | succ level ih =>
    have hcons : indentation (level + 1) = ['\t'] ++ indentation level := List.replicate_succ
    rw [hcons, List.append_assoc, ← prepend_prepend, ← ih, List.singleton_append,
      scanBlock_cons_of_ne (by decide) (by decide) (by decide)]

theorem scanBlock_newline (level : Nat) (cs : List Char) :
    scanBlock ('\n' :: indentation level ++ cs) =
      prepend ('\n' :: indentation level) (scanBlock cs) := by
  rw [List.cons_append, scanBlock_cons_of_ne (by decide) (by decide) (by decide),
    scanBlock_indentation, prepend_prepend, List.singleton_append]

/-- A block string goes through a printed text to its end, whatever quotes and backslashes stand in
it, or breaks off at a character that cannot be read. -/
theorem scanBlock_describedText (level : Nat) (cs : List Char) {tail : List Char}
    (htail : tail.head? ≠ some '"') :
    scanBlock (describedText level cs ++ tail) =
      if cs.all isBlockChar then prepend (describedText level cs) (scanBlock tail)
      else .error .unreadable := by
  induction cs using escapeQuotes.induct with
  | case1 r ih =>
    have hescaped : scanBlock ('\\' :: '"' :: '"' :: '"' :: (describedText level r ++ tail)) =
        prepend ['\\', '"', '"', '"'] (scanBlock (describedText level r ++ tail)) := by
      rw [scanBlock]
      rfl
    have hall : ('"' :: '"' :: '"' :: r).all isBlockChar = r.all isBlockChar := rfl
    rw [describedText_quotes, List.cons_append, List.cons_append, List.cons_append,
      List.cons_append, hescaped, ih, hall]
    split
    · rw [prepend_prepend]
      rfl
    · rfl
  | case2 c r hc ih =>
    have hquotes : c = '"' → ¬ ['"', '"'] <+: r := by
      rintro rfl ⟨r', rfl⟩
      exact hc r' rfl rfl
    rw [describedText_cons level hquotes, List.append_assoc]
    by_cases hnewline : c = '\n'
    · subst hnewline
      have hall : ('\n' :: r).all isBlockChar = r.all isBlockChar := rfl
      rw [if_pos (by decide), scanBlock_newline, ih, hall]
      split
      · rw [prepend_prepend]
      · rfl
    · have hclose : c = '"' → ¬ ['"', '"'] <+: describedText level r ++ tail :=
        fun he => not_quotes_prefix_describedText level (hquotes he) htail
      rw [if_neg (by simpa using hnewline), List.singleton_append,
        scanBlock_cons hclose fun _ => not_blockQuotes_prefix_describedText level htail, ih]
      rw [List.all_cons]
      cases isBlockChar c with
      | false => rfl
      | true =>
        rw [Bool.true_and, if_pos rfl]
        split
        · rw [prepend_prepend]
        · rfl
  | case3 =>
    have hnil : describedText level [] ++ tail = tail := rfl
    rw [hnil, List.all_nil, if_pos rfl]
    cases scanBlock tail <;> rfl

/-! ## Descriptions -/

theorem all_isIgnored_singleton (c : Char) (h : isIgnored c = true) : [c].all isIgnored = true := by
  rw [List.all_cons, h, List.all_nil, Bool.and_self]

theorem all_isIgnored_indentation (level : Nat) : (indentation level).all isIgnored = true := by
  rw [indentation, List.all_replicate]
  cases level <;> rfl

/-- What a block string holds if it is printed for a text. -/
def blockText (level : Nat) (text : String) : List Char :=
  '\n' :: indentation level ++ (describedText level text.toList ++ '\n' :: indentation level)

theorem scanBlock_blockText (level : Nat) (text : String) (rest : List Char) :
    scanBlock (blockText level text ++ (blockQuotes ++ rest)) =
      if text.toList.all isBlockChar then .ok (blockText level text, rest)
      else .error .unreadable := by
  have htail : ('\n' :: indentation level ++ (blockQuotes ++ rest)).head? ≠ some '"' := by
    rw [List.cons_append, List.head?_cons]
    decide
  have hclose : scanBlock (blockQuotes ++ rest) = .ok ([], rest) := rfl
  rw [blockText, List.append_assoc, List.append_assoc, scanBlock_newline,
    scanBlock_describedText level _ htail, scanBlock_newline, hclose]
  split
  · simp [prepend, Except.map]
  · rfl

/-- A description is one token, which may be one that cannot be read. -/
theorem ofText_describe (level : Nat) (text : String) (rest : List Char) :
    ofText (describe level (some text) ++ rest) =
      if text.toList.all isBlockChar then .block (blockText level text) :: ofText rest
      else [.unreadable] := by
  have htext : describe level (some text) ++ rest =
      indentation level ++ ('"' :: '"' :: '"' :: (blockText level text ++
        (blockQuotes ++ '\n' :: rest))) := by
    simp [describe, blockText, blockQuotes, describedText]
  have hscan : scan ('"' :: '"' :: '"' :: (blockText level text ++ (blockQuotes ++ '\n' :: rest))) =
      if text.toList.all isBlockChar then (.block (blockText level text), '\n' :: rest)
      else (.unreadable, []) := by
    rw [scan, scanBlock_blockText]
    cases text.toList.all isBlockChar <;> rfl
  rw [htext, ofText_skipAll (all_isIgnored_indentation level), ofText_cons, hscan,
    if_neg (by decide), if_neg (by decide)]
  have hline : ofText ('\n' :: rest) = ofText rest := ofText_skip rfl rest
  split
  · exact congrArg (List.cons _) hline
  · rfl

end Token

end ApiGraph.GraphQL.Sdl
