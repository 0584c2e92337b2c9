import ApiGraph.Json.Printer
import ApiGraph.Json.Reader
import Mathlib.Data.List.TakeWhile
import Mathlib.Data.Nat.Digits.Defs

/-!
# JSON texts that are read back

The compact text of a value is read as a tree that says the same: `Tree.ofJson?` is that tree, for
values whose numbers are integers of the 64-bit ranges.

A string is read character by character, and each character comes back from its escape
(`joinUnits_unitOf`).  A number needs to know where it ends, so what follows must not go on with it
(`EndsNumber`).  The bound on the nesting of calls is never met, as every second call takes a
character.

* `string_flatMap_escapeChar`, `number_integerText`: strings and numbers.
* `value_write`: a value, whatever follows it.
* `read?_write`: a whole text.
-/

namespace ApiGraph.Json

open ApiGraph.Decimal (inSigned inUnsigned pow2)

/-! ## Trees of values -/

/-- The literal of an integer. -/
def Literal.ofInt (n : Int) : Literal :=
  { negative := n < 0, whole := Nat.toDigits 10 n.natAbs, fraction := [], exponent := none }

/-- The literal of a number that is an integer of the signed or the unsigned 64-bit range. -/
def Number.literal? : Number → Option Literal
  | .integer n => if inSigned 63 n || inUnsigned 64 n then some (.ofInt n) else none
  | .float _ => none

theorem Number.literal?_integer {n : Int} {l : Literal} :
    (Number.integer n).literal? = some l ↔
      (inSigned 63 n || inUnsigned 64 n) = true ∧ Literal.ofInt n = l :=
  Option.ite_none_right_eq_some.trans (and_congr_right fun _ => Option.some_inj)

mutual

/-- The tree that the text of a value says. -/
def Tree.ofJson? : Json → Option Tree
  | .null => some .null
  | .bool b => some (.bool b)
  | .number n => n.literal?.map .number
  | .string s => some (.string (some s))
  | .array items => (treesOfItems? items).map .array
  | .object members => (treesOfMembers? members).map .object

def treesOfItems? : List Json → Option (List Tree)
  | [] => some []
  | j :: r => (Tree.ofJson? j).bind fun t => (treesOfItems? r).map (t :: ·)

def treesOfMembers? : List (String × Json) → Option (List (Option String × Tree))
  | [] => some []
  | (k, j) :: r => (Tree.ofJson? j).bind fun t => (treesOfMembers? r).map ((some k, t) :: ·)

end

/-! ## Strings -/

/-- What the reader finds where a character was written. -/
def unitOf (c : Char) : StringUnit :=
  if c.toNat < 0x20 && !(['\x08', '\t', '\n', '\x0c', '\r'].contains c) then .escaped c.toNat
  else .char c

theorem number?_controlCode : ∀ n < 0x20,
    Text.number? 16 ['0', '0', Nat.digitChar (n / 16), Nat.digitChar (n % 16)] = some n := by
  decide

/-- The three ways in which a character is written. -/
theorem escapeChar_cases (c : Char) :
    (∃ e, e ≠ 'u' ∧ shortEscape? e = some c ∧ escapeChar c = ['\\', e] ∧ unitOf c = .char c) ∨
      (c.toNat < 0x20 ∧ escapeChar c =
          ['\\', 'u', '0', '0', Nat.digitChar (c.toNat / 16), Nat.digitChar (c.toNat % 16)] ∧
        unitOf c = .escaped c.toNat) ∨
      (¬ c.toNat < 0x20 ∧ c ≠ '"' ∧ c ≠ '\\' ∧ escapeChar c = [c] ∧ unitOf c = .char c) := by
  by_cases hshort : c ∈ ['"', '\\', '\x08', '\t', '\n', '\x0c', '\r']
  · refine Or.inl ?_
    simp only [List.mem_cons, List.not_mem_nil, or_false] at hshort
    rcases hshort with rfl | rfl | rfl | rfl | rfl | rfl | rfl
    · exact ⟨'"', by decide, rfl, rfl, rfl⟩
    · exact ⟨'\\', by decide, rfl, rfl, rfl⟩
    · exact ⟨'b', by decide, rfl, rfl, rfl⟩
    · exact ⟨'t', by decide, rfl, rfl, rfl⟩
    · exact ⟨'n', by decide, rfl, rfl, rfl⟩
    · exact ⟨'f', by decide, rfl, rfl, rfl⟩
    · exact ⟨'r', by decide, rfl, rfl, rfl⟩
  · simp only [List.mem_cons, List.not_mem_nil, or_false, not_or] at hshort
    obtain ⟨hquote, hbackslash, hb, ht, hn, hf, hr⟩ := hshort
    refine Or.inr ?_
    by_cases hcontrol : c.toNat < 0x20
    · exact Or.inl ⟨hcontrol, by simp [escapeChar, *], by simp [unitOf, *]⟩
    · exact Or.inr ⟨hcontrol, hquote, hbackslash, by simp [escapeChar, *], by simp [unitOf, *]⟩

theorem stringUnits_escapeChar (c : Char) (rest : List Char) :
    Reader.stringUnits (escapeChar c ++ rest) =
      (Reader.stringUnits rest).map fun p => (unitOf c :: p.1, p.2) := by
  rcases escapeChar_cases c with ⟨e, hu, hshort, hescape, hunit⟩ | ⟨hcontrol, hescape, hunit⟩ |
    ⟨hcontrol, hquote, hbackslash, hescape, hunit⟩
  · rw [hescape, hunit]
    cases hrest : Reader.stringUnits rest <;> simp [Reader.stringUnits, hu, hshort, hrest]
  · rw [hescape, hunit]
    cases hrest : Reader.stringUnits rest <;>
      simp [Reader.stringUnits, number?_controlCode _ hcontrol, hrest]
  · rw [hescape, hunit]
    simp [Reader.stringUnits, hcontrol, hbackslash]

theorem joinUnits_unitOf (c : Char) (us : List StringUnit) :
    joinUnits (unitOf c :: us) = (joinUnits us).map (c :: ·) := by
  rcases escapeChar_cases c with ⟨-, -, -, -, hunit⟩ | ⟨hcontrol, -, hunit⟩ | ⟨-, -, -, -, hunit⟩
  · rw [hunit, joinUnits]
  · have hhigh : ¬ 0xD800 ≤ c.toNat := by omega
    have hlow : ¬ 0xDC00 ≤ c.toNat := by omega
    rw [hunit]
    cases us with
    | nil => simp [joinUnits, hhigh]
    | cons u us =>
      cases u with
      | char d => simp [joinUnits, hhigh]
      | escaped low => simp [joinUnits, hhigh, hlow]
  · rw [hunit, joinUnits]

theorem stringUnits_flatMap (cs rest : List Char) :
    Reader.stringUnits (cs.flatMap escapeChar ++ '"' :: rest) = some (cs.map unitOf, rest) := by
  induction cs with
  | nil => rfl
  | cons c cs ih =>
    rw [List.flatMap_cons, List.append_assoc, stringUnits_escapeChar, ih]
    rfl

theorem joinUnits_map (cs : List Char) : joinUnits (cs.map unitOf) = some cs := by
  induction cs with
  | nil => rfl
  | cons c cs ih =>
    rw [List.map_cons, joinUnits_unitOf, ih]
    rfl

/-- A string, from behind its opening quote. -/
theorem string_flatMap_escapeChar (s : String) (rest : List Char) :
    Reader.string (s.toList.flatMap escapeChar ++ '"' :: rest) = some (some s, rest) := by
  simp only [Reader.string, stringUnits_flatMap, joinUnits_map, Option.map_some,
    String.ofList_toList]

theorem writeString_append (s : String) (rest : List Char) :
    writeString s ++ rest = '"' :: (s.toList.flatMap escapeChar ++ '"' :: rest) := by
  rw [writeString, List.append_assoc, List.cons_append]
  rfl

/-! ## Numbers -/

/-- Nothing goes on with a number here. -/
def EndsNumber (rest : List Char) : Prop :=
  ∀ c r, rest = c :: r → c.isDigit = false ∧ c ≠ '.' ∧ c ≠ 'e' ∧ c ≠ 'E'

theorem endsNumber_nil : EndsNumber [] := nofun

theorem endsNumber_cons {c : Char} (rest : List Char)
    (h : c.isDigit = false ∧ c ≠ '.' ∧ c ≠ 'e' ∧ c ≠ 'E') : EndsNumber (c :: rest) := by
  rintro _ _ ⟨⟩
  exact h

theorem head_toDigits_ne_zero (n : Nat) (h : 0 < n) :
    ∃ c ds, Nat.toDigits 10 n = c :: ds ∧ c ≠ '0' := by
  induction n using Nat.strong_induction_on with
  | h n ih =>
    rw [Nat.toDigits_eq_if (by decide)]
    split
    · rename_i hlt
      refine ⟨_, _, rfl, ?_⟩
      have hall : ∀ n < 10, 0 < n → Nat.digitChar n ≠ '0' := by decide
      exact hall n hlt h
    · rename_i hge
      obtain ⟨c, ds, hdigits, hc⟩ := ih (n / 10) (by omega) (by omega)
      exact ⟨c, ds ++ [Nat.digitChar (n % 10)], by rw [hdigits, List.cons_append], hc⟩

theorem digits_of_endsNumber {rest : List Char} (h : EndsNumber rest) :
    Reader.digits rest = ([], rest) := by
  cases rest with
  | nil => rfl
  | cons c r =>
    have hc : ¬ c.isDigit = true := by simp [(h c r rfl).1]
    rw [Reader.digits, List.takeWhile_cons_of_neg hc, List.dropWhile_cons_of_neg hc]

theorem digits_append {ds rest : List Char} (h : ∀ c ∈ ds, c.isDigit = true)
    (hrest : EndsNumber rest) : Reader.digits (ds ++ rest) = (ds, rest) := by
  obtain ⟨htake, hdrop⟩ := Prod.mk.inj (digits_of_endsNumber hrest)
  rw [Reader.digits, List.takeWhile_append_of_pos h, List.dropWhile_append_of_pos h, htake, hdrop,
    List.append_nil]

theorem isDigit_of_mem_toDigits {n : Nat} {c : Char} (h : c ∈ Nat.toDigits 10 n) :
    c.isDigit = true :=
  Nat.isDigit_of_mem_toDigits (by decide) (Nat.le_refl 10) h

theorem whole_toDigits (n : Nat) {rest : List Char} (hrest : EndsNumber rest) :
    Reader.whole (Nat.toDigits 10 n ++ rest) = some (Nat.toDigits 10 n, rest) := by
  have hread := digits_append (fun _ => isDigit_of_mem_toDigits (n := n)) hrest
  rcases Nat.eq_zero_or_pos n with rfl | hpos
  · rw [Nat.toDigits_zero, List.singleton_append, Reader.whole, digits_of_endsNumber hrest]
    rfl
  · obtain ⟨c, ds, hdigits, hc⟩ := head_toDigits_ne_zero n hpos
    rw [hdigits, List.cons_append] at hread ⊢
    rw [Reader.whole.eq_2 _ fun r heq => hc (List.cons.inj heq).1, hread]
    rfl

theorem fraction_of_endsNumber {rest : List Char} (h : EndsNumber rest) :
    Reader.fraction rest = some ([], rest) := by
  cases rest with
  | nil => rfl
  | cons c r => exact Reader.fraction.eq_2 _ fun r' heq => (h c r rfl).2.1 (List.cons.inj heq).1

theorem exponent_of_endsNumber {rest : List Char} (h : EndsNumber rest) :
    Reader.exponent rest = some (none, rest) := by
  cases rest with
  | nil => rfl
  | cons c r =>
    obtain ⟨-, -, he, hE⟩ := h c r rfl
    simp [Reader.exponent, he, hE]

theorem isDigit_head_toDigits (n : Nat) :
    ∃ c ds, Nat.toDigits 10 n = c :: ds ∧ c.isDigit = true := by
  obtain ⟨c, ds, hdigits⟩ := List.exists_cons_of_ne_nil (Nat.toDigits_ne_nil (b := 10) (n := n))
  exact ⟨c, ds, hdigits, isDigit_of_mem_toDigits (hdigits ▸ List.mem_cons_self)⟩

/-- An integer, with its sign. -/
theorem number_integerText (n : Int) {rest : List Char} (hrest : EndsNumber rest) :
    Reader.number (integerText n ++ rest) = some (.ofInt n, rest) := by
  have hwhole := whole_toDigits n.natAbs hrest
  have hfraction := fraction_of_endsNumber hrest
  have hexponent := exponent_of_endsNumber hrest
  by_cases hneg : n < 0
  · simp [integerText, Reader.number, Literal.ofInt, hneg, hwhole, hfraction, hexponent]
  · obtain ⟨c, ds, hdigits, hc⟩ := isDigit_head_toDigits n.natAbs
    have hminus : c ≠ '-' := by
      rintro rfl
      exact absurd hc (by decide)
    rw [hdigits, List.cons_append] at hwhole
    simp [integerText, Reader.number, Literal.ofInt, hneg, hdigits, hminus, hwhole, hfraction,
      hexponent]

theorem digitsValue_toDigits (n : Nat) : Text.digitsValue 10 (Nat.toDigits 10 n) = n := by
  have hfold : ∀ cs : List Char, (∀ c ∈ cs, c.isDigit = true) → ∀ k,
      cs.foldl (fun n c => n * 10 + (Text.hexValue? c).getD 0) k = Nat.ofDigitChars 10 cs k := by
    intro cs
    induction cs with
    | nil => exact fun _ _ => rfl
    | cons c cs ih =>
      intro hdigits k
      have hc : Text.hexValue? c = some (c.toNat - '0'.toNat) :=
        if_pos (hdigits c List.mem_cons_self)
      rw [List.foldl_cons, ih (fun c hc => hdigits c (List.mem_cons_of_mem _ hc)), hc,
        Nat.ofDigitChars_cons, Nat.mul_comm]
      rfl
  rw [Text.digitsValue, hfold _ fun _ => isDigit_of_mem_toDigits, Nat.ofDigitChars_ten_toDigits]

theorem number?_ofInt {n : Int} (h : (inSigned 63 n || inUnsigned 64 n) = true) :
    (Literal.ofInt n).number? = some (.integer n) := by
  have h63 : pow2 63 = 9223372036854775808 := by decide
  have h64 : pow2 64 = 18446744073709551616 := by decide
  simp only [inSigned, inUnsigned, Bool.or_eq_true, Bool.and_eq_true, decide_eq_true_eq, h63,
    h64] at h
  by_cases hneg : n < 0
  · have hrange : n.natAbs ≤ pow2 63 := by omega
    have hne : n ≠ 0 := by omega
    have hvalue : -|n| = n := by rw [abs_of_neg hneg, neg_neg]
    simp [Literal.number?, Literal.ofInt, digitsValue_toDigits, hneg, hrange, hne, hvalue]
  · have hrange : n.natAbs < pow2 64 := by omega
    have hvalue : (n.natAbs : Int) = n := by omega
    simp [Literal.number?, Literal.ofInt, digitsValue_toDigits, hneg, hrange, hvalue]

/-! ## Values -/

/-- With such a character a value may begin: it is no blank, and it does not end a list. -/
def startsValue (c : Char) : Bool :=
  !Reader.isSpace c && c != ']'

theorem skipSpace_cons {c : Char} (h : Reader.isSpace c = false) (rest : List Char) :
    Reader.skipSpace (c :: rest) = c :: rest :=
  List.dropWhile_cons_of_neg (by simp [h])

theorem isDigit_or_minus_of_integerText (n : Int) :
    ∃ c r, integerText n = c :: r ∧ (c.isDigit = true ∨ c = '-') := by
  rw [integerText]
  by_cases hneg : n < 0
  · exact ⟨'-', _, if_pos hneg, Or.inr rfl⟩
  · obtain ⟨c, ds, hdigits, hc⟩ := isDigit_head_toDigits n.natAbs
    exact ⟨c, ds, (if_neg hneg).trans hdigits, Or.inl hc⟩

theorem isSpace_of_isDigit {c : Char} (h : c.isDigit = true ∨ c = '-') :
    Reader.isSpace c = false := by
  by_contra hblank
  simp only [Reader.isSpace, Bool.not_eq_false, Bool.or_eq_true, beq_iff_eq] at hblank
  rcases hblank with ((rfl | rfl) | rfl) | rfl <;> exact absurd h (by decide)

/-- What begins like a number is one. -/
theorem value_of_number {c : Char} (h : c.isDigit = true ∨ c = '-') (n : Nat) (r : List Char) :
    Reader.value (n + 1) (c :: r) =
      (Reader.number (c :: r)).map fun p => (.number p.1, p.2) := by
  rw [Reader.value, skipSpace_cons (isSpace_of_isDigit h)]
  split
  case h_7 => rfl
  all_goals
    rename_i heq
    obtain rfl := (List.cons.inj heq).1
    exact absurd h (by decide)

theorem exists_head_write {j : Json} {t : Tree} (h : Tree.ofJson? j = some t) :
    ∃ c r, write j = c :: r ∧ startsValue c = true := by
  cases j with
  | null => exact ⟨_, _, rfl, by decide⟩
  | bool b => cases b <;> exact ⟨_, _, rfl, by decide⟩
  | number n =>
    cases n with
    | float x => exact nomatch h
    | integer n =>
      obtain ⟨c, r, htext, hc⟩ := isDigit_or_minus_of_integerText n
      refine ⟨c, r, htext, ?_⟩
      have hclosing : c ≠ ']' := by
        rintro rfl
        exact absurd hc (by decide)
      rw [startsValue, isSpace_of_isDigit hc, Bool.not_false, Bool.true_and, bne_iff_ne]
      exact hclosing
  | string s => exact ⟨'"', _, rfl, by decide⟩
  | array items => exact ⟨'[', _, rfl, by decide⟩
  | object members => exact ⟨'\x7b', _, rfl, by decide⟩

theorem commaSeparated_cons (t : List Char) {ts : List (List Char)} (h : ts ≠ []) :
    commaSeparated (t :: ts) = t ++ ',' :: commaSeparated ts := by
  cases ts with
  | nil => exact absurd rfl h
  | cons t' ts => rfl

theorem exists_head_commaSeparated {t r : List Char} {c : Char} (h : t = c :: r)
    (ts : List (List Char)) : ∃ r', commaSeparated (t :: ts) = c :: r' := by
  cases ts with
  | nil => exact ⟨r, h⟩
  | cons t' ts => exact ⟨_, congrArg (· ++ ',' :: commaSeparated (t' :: ts)) h⟩

theorem exists_head_writeMembers (k : String) (j : Json) (ps : List (String × Json)) :
    ∃ r, commaSeparated (writeMembers ((k, j) :: ps)) = '"' :: r :=
  exists_head_commaSeparated (writeString_append k (':' :: write j)) _

theorem value_array {c : Char} (h : startsValue c = true) (n : Nat) (r : List Char) :
    Reader.value (n + 1) ('[' :: c :: r) =
      (Reader.arrayItems n (c :: r)).map fun p => (.array p.1, p.2) := by
  rw [startsValue, Bool.and_eq_true, Bool.not_eq_true', bne_iff_ne] at h
  rw [Reader.value, skipSpace_cons (by decide)]
  simp only [skipSpace_cons h.1]
  split
  · rename_i heq
    exact absurd (List.cons.inj heq).1 h.2
  · rfl

theorem value_object (n : Nat) (r : List Char) :
    Reader.value (n + 1) ('\x7b' :: '"' :: r) =
      (Reader.objectMembers n ('"' :: r)).map fun p => (.object p.1, p.2) := by
  rw [Reader.value, skipSpace_cons (by decide)]
  rfl

section Loops

variable {n : Nat} {cs r rest : List Char} {t : Tree} {ts : List Tree} {k : String}
  {ms : List (Option String × Tree)}

theorem arrayItems_last (h : Reader.value n cs = some (t, ']' :: rest)) :
    Reader.arrayItems (n + 1) cs = some ([t], rest) := by
  rw [Reader.arrayItems, h]
  rfl

theorem arrayItems_more (h : Reader.value n cs = some (t, ',' :: r))
    (hr : Reader.arrayItems n r = some (ts, rest)) :
    Reader.arrayItems (n + 1) cs = some (t :: ts, rest) := by
  rw [Reader.arrayItems, h]
  simp only [Option.bind_some, skipSpace_cons (c := ',') (by decide), hr, Option.map_some]

theorem objectMembers_last (h : Reader.value n cs = some (t, '\x7d' :: rest)) :
    Reader.objectMembers (n + 1) (writeString k ++ ':' :: cs) = some ([(some k, t)], rest) := by
  rw [Reader.objectMembers, writeString_append, skipSpace_cons (by decide)]
  simp only [string_flatMap_escapeChar, Option.bind_some, skipSpace_cons (c := ':') (by decide), h]
  rfl

theorem objectMembers_more (h : Reader.value n cs = some (t, ',' :: r))
    (hr : Reader.objectMembers n r = some (ms, rest)) :
    Reader.objectMembers (n + 1) (writeString k ++ ':' :: cs) = some ((some k, t) :: ms, rest) := by
  rw [Reader.objectMembers, writeString_append, skipSpace_cons (by decide)]
  simp only [string_flatMap_escapeChar, Option.bind_some, skipSpace_cons (c := ':') (by decide), h,
    skipSpace_cons (c := ',') (by decide), hr, Option.map_some]

end Loops

mutual

/-- A value whose numbers are integers, whatever follows it. -/
theorem value_write : ∀ (j : Json) {t : Tree}, Tree.ofJson? j = some t → ∀ (n : Nat)
    (rest : List Char), 2 * (write j).length ≤ n + 1 → EndsNumber rest →
      Reader.value (n + 1) (write j ++ rest) = some (t, rest)
  | .null, t, h, n, rest, hn, _ => by
    obtain rfl := Option.some.inj h
    rfl
  | .bool b, t, h, n, rest, hn, _ => by
    obtain rfl := Option.some.inj h
    cases b <;> rfl
  | .number (.float x), t, h, n, rest, hn, hrest => nomatch h
  | .number (.integer i), t, h, n, rest, hn, hrest => by
    obtain ⟨l, hl, rfl⟩ := Option.map_eq_some_iff.mp h
    obtain ⟨-, rfl⟩ := Number.literal?_integer.mp hl
    obtain ⟨c, r, htext, hc⟩ := isDigit_or_minus_of_integerText i
    have hread := number_integerText i hrest
    rw [htext, List.cons_append] at hread
    rw [write, Number.text, htext, List.cons_append, value_of_number hc, hread]
    rfl
  | .string s, t, h, n, rest, hn, hrest => by
    obtain rfl := Option.some.inj h
    rw [write, writeString_append, Reader.value, skipSpace_cons (by decide)]
    simp only [string_flatMap_escapeChar, Option.map_some]
  | .array [], t, h, n, rest, hn, hrest => by
    obtain rfl := Option.some.inj h
    rfl
  | .array (j :: js), t, h, n, rest, hn, hrest => by
    obtain ⟨ts, hts, rfl⟩ := Option.map_eq_some_iff.mp h
    obtain ⟨tj, htj, -⟩ := Option.bind_eq_some_iff.mp hts
    obtain ⟨c, r, hhead, hc⟩ := exists_head_write htj
    obtain ⟨r', hlist⟩ := exists_head_commaSeparated hhead (writeItems js)
    rw [write, List.length_append, List.length_cons, List.length_singleton] at hn
    obtain ⟨m, rfl⟩ : ∃ m, n = m + 2 := Nat.exists_eq_add_of_le' (by omega)
    have hitems := arrayItems_write (j :: js) (by simp) hts m rest (by omega)
    rw [writeItems, hlist, List.cons_append] at hitems
    rw [write, List.append_assoc, List.cons_append, List.singleton_append, writeItems, hlist,
      List.cons_append, value_array hc, hitems]
    rfl
  | .object [], t, h, n, rest, hn, hrest => by
    obtain rfl := Option.some.inj h
    rfl
  | .object ((k, j) :: ps), t, h, n, rest, hn, hrest => by
    obtain ⟨ms, hms, rfl⟩ := Option.map_eq_some_iff.mp h
    obtain ⟨r, hhead⟩ := exists_head_writeMembers k j ps
    rw [write, List.length_append, List.length_cons, List.length_singleton] at hn
    obtain ⟨m, rfl⟩ : ∃ m, n = m + 2 := Nat.exists_eq_add_of_le' (by omega)
    have hmembers := objectMembers_write ((k, j) :: ps) (by simp) hms m rest (by omega)
    rw [hhead, List.cons_append] at hmembers
    rw [write, List.append_assoc, List.cons_append, List.singleton_append, hhead,
      List.cons_append, value_object, hmembers]
    rfl

theorem arrayItems_write : ∀ (js : List Json) {ts : List Tree}, js ≠ [] →
    treesOfItems? js = some ts → ∀ (n : Nat) (rest : List Char),
      2 * (commaSeparated (writeItems js)).length ≤ n + 1 →
        Reader.arrayItems (n + 2) (commaSeparated (writeItems js) ++ ']' :: rest) = some (ts, rest)
  | [], _, hne, _, _, _, _ => absurd rfl hne
  | [j], ts, _, h, n, rest, hn => by
    obtain ⟨t, ht, h⟩ := Option.bind_eq_some_iff.mp h
    obtain rfl := Option.some.inj h
    exact arrayItems_last (value_write j ht n _ hn (endsNumber_cons _ (by decide)))
  | j :: j' :: js, ts, _, h, n, rest, hn => by
    obtain ⟨t, ht, h⟩ := Option.bind_eq_some_iff.mp h
    obtain ⟨ts, hts, rfl⟩ := Option.map_eq_some_iff.mp h
    rw [writeItems, commaSeparated_cons _ (by simp [writeItems])] at hn ⊢
    rw [List.length_append, List.length_cons] at hn
    rw [List.append_assoc]
    obtain ⟨m, rfl⟩ : ∃ m, n = m + 1 := Nat.exists_eq_add_of_le' (by omega)
    exact arrayItems_more (value_write j ht (m + 1) _ (by omega) (endsNumber_cons _ (by decide)))
      (arrayItems_write (j' :: js) (by simp) hts m rest (by omega))

theorem objectMembers_write : ∀ (ps : List (String × Json)) {ms : List (Option String × Tree)},
    ps ≠ [] → treesOfMembers? ps = some ms → ∀ (n : Nat) (rest : List Char),
      2 * (commaSeparated (writeMembers ps)).length ≤ n + 1 →
        Reader.objectMembers (n + 2) (commaSeparated (writeMembers ps) ++ '\x7d' :: rest) =
          some (ms, rest)
  | [], _, hne, _, _, _, _ => absurd rfl hne
  | [(k, j)], ms, _, h, n, rest, hn => by
    obtain ⟨t, ht, h⟩ := Option.bind_eq_some_iff.mp h
    obtain rfl := Option.some.inj h
    rw [writeMembers, writeMembers, commaSeparated, List.length_append, List.length_cons] at hn
    rw [writeMembers, writeMembers, commaSeparated, List.append_assoc, List.cons_append]
    exact objectMembers_last (value_write j ht n _ (by omega) (endsNumber_cons _ (by decide)))
  | (k, j) :: p :: ps, ms, _, h, n, rest, hn => by
    obtain ⟨t, ht, h⟩ := Option.bind_eq_some_iff.mp h
    obtain ⟨ms, hms, rfl⟩ := Option.map_eq_some_iff.mp h
    rw [writeMembers, commaSeparated_cons _ (by simp [writeMembers])] at hn ⊢
    rw [List.length_append, List.length_append, List.length_cons, List.length_cons] at hn
    rw [List.append_assoc, List.append_assoc, List.cons_append, List.cons_append]
    obtain ⟨m, rfl⟩ : ∃ m, n = m + 1 := Nat.exists_eq_add_of_le' (by omega)
    exact objectMembers_more (value_write j ht (m + 1) _ (by omega) (endsNumber_cons _ (by decide)))
      (objectMembers_write (p :: ps) (by simp) hms m rest (by omega))

end

mutual

/-- The tree of a value has a value, within any bound that the nesting of the value respects. -/
theorem exists_value? : ∀ (j : Json) {t : Tree}, Tree.ofJson? j = some t → ∀ d, j.depth ≤ d →
    ∃ v, t.value? d = some v
  | .null, t, h, d, _ => by
    obtain rfl := Option.some.inj h
    exact ⟨_, rfl⟩
  | .bool b, t, h, d, _ => by
    obtain rfl := Option.some.inj h
    exact ⟨_, rfl⟩
  | .number (.float x), t, h, d, _ => nomatch h
  | .number (.integer i), t, h, d, _ => by
    obtain ⟨l, hl, rfl⟩ := Option.map_eq_some_iff.mp h
    obtain ⟨hrange, rfl⟩ := Number.literal?_integer.mp hl
    exact ⟨.number (.integer i), by rw [Tree.value?, number?_ofInt hrange]; rfl⟩
  | .string s, t, h, d, _ => by
    obtain rfl := Option.some.inj h
    exact ⟨_, rfl⟩
  | .array js, t, h, d, hd => by
    obtain ⟨ts, hts, rfl⟩ := Option.map_eq_some_iff.mp h
    obtain ⟨e, rfl⟩ : ∃ e, d = e + 1 := Nat.exists_eq_add_of_le' (Nat.le_of_add_left_le hd)
    obtain ⟨vs, hvs⟩ := exists_itemValues? js hts e (Nat.le_of_succ_le_succ hd)
    exact ⟨.array vs, by rw [Tree.value?, hvs]; rfl⟩
  | .object ps, t, h, d, hd => by
    obtain ⟨ms, hms, rfl⟩ := Option.map_eq_some_iff.mp h
    obtain ⟨e, rfl⟩ : ∃ e, d = e + 1 := Nat.exists_eq_add_of_le' (Nat.le_of_add_left_le hd)
    obtain ⟨vs, hvs⟩ := exists_memberValues? ps hms e (Nat.le_of_succ_le_succ hd)
    exact ⟨.object (Dictionary.ofPairs vs), by rw [Tree.value?, hvs]; rfl⟩

theorem exists_itemValues? : ∀ (js : List Json) {ts : List Tree}, treesOfItems? js = some ts →
    ∀ d, depthOfItems js ≤ d → ∃ vs, Tree.itemValues? d ts = some vs
  | [], ts, h, d, _ => by
    obtain rfl := Option.some.inj h
    exact ⟨[], rfl⟩
  | j :: js, ts, h, d, hd => by
    obtain ⟨t, ht, h⟩ := Option.bind_eq_some_iff.mp h
    obtain ⟨ts, hts, rfl⟩ := Option.map_eq_some_iff.mp h
    obtain ⟨v, hv⟩ := exists_value? j ht d (le_of_max_le_left hd)
    obtain ⟨vs, hvs⟩ := exists_itemValues? js hts d (le_of_max_le_right hd)
    exact ⟨v :: vs, by rw [Tree.itemValues?, hv, hvs]; rfl⟩

theorem exists_memberValues? : ∀ (ps : List (String × Json)) {ms : List (Option String × Tree)},
    treesOfMembers? ps = some ms → ∀ d, depthOfMembers ps ≤ d →
      ∃ vs, Tree.memberValues? d ms = some vs
  | [], ms, h, d, _ => by
    obtain rfl := Option.some.inj h
    exact ⟨[], rfl⟩
  | (k, j) :: ps, ms, h, d, hd => by
    obtain ⟨t, ht, h⟩ := Option.bind_eq_some_iff.mp h
    obtain ⟨ms, hms, rfl⟩ := Option.map_eq_some_iff.mp h
    obtain ⟨v, hv⟩ := exists_value? j ht d (le_of_max_le_left hd)
    obtain ⟨vs, hvs⟩ := exists_memberValues? ps hms d (le_of_max_le_right hd)
    exact ⟨(k, v) :: vs, by rw [Tree.memberValues?, hv, hvs]; rfl⟩

end

/-- A whole text. -/
theorem read?_write {j : Json} {t : Tree} (h : Tree.ofJson? j = some t) :
    Tree.read? (write j) = some t := by
  have hvalue := value_write j h (2 * (write j).length + 1) [] (by omega) endsNumber_nil
  rw [List.append_nil] at hvalue
  rw [Tree.read?, hvalue]
  rfl

end ApiGraph.Json
