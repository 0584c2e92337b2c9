import ApiGraph.GraphQL.Sdl.Reader
import ApiGraph.Proofs.Sdl.Printable
import ApiGraph.Proofs.Sdl.Scanning

/-!
# What readers make of printed text

`Reads p cs texts a rest` says what a reader `p` does with a text `cs` that stands in front of
`rest`, where `texts` are the descriptions in `cs`.  If all of them can be read, `p` takes exactly
`cs` and finds `a`; if one cannot, the tokens end there, and `p` fails at that token.  `Takes` says
moreover that `p` takes at least one token, which is what bounds the loops of the readers.

Both go through a sequence of readers: `Reads.bind` puts the texts behind one another.  The other
lemmas follow the grammar: single tokens, types, descriptions, and items between two characters.  A
reader that looks whether something optional follows finds nothing if what follows is a name or a
description (`StartsItem`) or a closing character (`Ends`).
-/

namespace ApiGraph.GraphQL.Sdl

open Token

/-! ## Sequences of readers -/

namespace Reader

variable {α β : Type}

theorem bind_ok {p : Reader α} {f : α → Reader β} {ts rest : List Token} {a : α}
    (h : p ts = .ok (a, rest)) : (p >>= f) ts = f a rest := by
  simp only [bind, h]

theorem bind_error {p : Reader α} {f : α → Reader β} {ts rest : List Token}
    (h : p ts = .error rest) : (p >>= f) ts = .error rest := by
  simp only [bind, h]

end Reader

open Reader

variable {α β γ : Type} {p : Reader α} {f : α → Reader β} {cs cs₁ cs₂ rest : List Char}
  {texts texts₁ texts₂ : List String} {a : α} {b : β}

/-- In front of `rest`, the reader takes the text `cs` with these descriptions and finds `a`. -/
structure Reads (p : Reader α) (cs : List Char) (texts : List String) (a : α)
    (rest : List Char) : Prop where
  result : p (ofText (cs ++ rest)) =
    if readable texts then .ok (a, ofText rest) else .error [.unreadable]
  length_le : readable texts = true → (ofText rest).length ≤ (ofText (cs ++ rest)).length

/-- The reader takes at least one token. -/
structure Takes (p : Reader α) (cs : List Char) (texts : List String) (a : α)
    (rest : List Char) : Prop extends Reads p cs texts a rest where
  length_lt : readable texts = true → (ofText rest).length < (ofText (cs ++ rest)).length

theorem Reads.pure (a : α) (rest : List Char) : Reads (Pure.pure a) [] [] a rest :=
  ⟨rfl, fun _ => le_refl _⟩

theorem Reads.bind_result (hp : Reads p cs₁ texts₁ a (cs₂ ++ rest))
    (hf : Reads (f a) cs₂ texts₂ b rest) :
    (p >>= f) (ofText (cs₁ ++ cs₂ ++ rest)) =
      if readable (texts₁ ++ texts₂) then .ok (b, ofText rest) else .error [.unreadable] := by
  have hfirst := hp.result
  rw [← List.append_assoc] at hfirst
  rw [readable_append]
  cases h : readable texts₁ with
  | false =>
    rw [h, if_neg Bool.false_ne_true] at hfirst
    exact bind_error hfirst
  | true =>
    rw [h, if_pos rfl] at hfirst
    rw [bind_ok hfirst, Bool.true_and]
    exact hf.result

theorem readable_of_append (h : readable (texts₁ ++ texts₂) = true) :
    readable texts₁ = true ∧ readable texts₂ = true := by
  rw [readable_append, Bool.and_eq_true] at h
  exact h

theorem Reads.bind (hp : Reads p cs₁ texts₁ a (cs₂ ++ rest))
    (hf : Reads (f a) cs₂ texts₂ b rest) :
    Reads (p >>= f) (cs₁ ++ cs₂) (texts₁ ++ texts₂) b rest := by
  refine ⟨hp.bind_result hf, fun h => ?_⟩
  obtain ⟨h₁, h₂⟩ := readable_of_append h
  rw [List.append_assoc]
  exact (hf.length_le h₂).trans (hp.length_le h₁)

theorem Takes.bind (hp : Takes p cs₁ texts₁ a (cs₂ ++ rest))
    (hf : Reads (f a) cs₂ texts₂ b rest) :
    Takes (p >>= f) (cs₁ ++ cs₂) (texts₁ ++ texts₂) b rest := by
  refine ⟨hp.toReads.bind hf, fun h => ?_⟩
  obtain ⟨h₁, h₂⟩ := readable_of_append h
  rw [List.append_assoc]
  exact (hf.length_le h₂).trans_lt (hp.length_lt h₁)

/-- What follows may take nothing. -/
theorem Reads.bind_nothing (hp : Reads p cs texts a rest) (hf : Reads (f a) [] [] b rest) :
    Reads (p >>= f) cs texts b rest := by
  have h : Reads (p >>= f) (cs ++ []) (texts ++ []) b rest := hp.bind hf
  rw [List.append_nil, List.append_nil] at h
  exact h

theorem Takes.bind_nothing (hp : Takes p cs texts a rest) (hf : Reads (f a) [] [] b rest) :
    Takes (p >>= f) cs texts b rest := by
  have h : Takes (p >>= f) (cs ++ []) (texts ++ []) b rest := hp.bind hf
  rw [List.append_nil, List.append_nil] at h
  exact h

/-- What stands in front may take nothing. -/
theorem Reads.nothing_bind (hp : Reads p [] [] a (cs ++ rest)) (hf : Reads (f a) cs texts b rest) :
    Reads (p >>= f) cs texts b rest :=
  hp.bind hf

/-! ## Blanks -/

variable {blanks : List Char}

/-- Blanks before a text. -/
theorem Reads.after (hblanks : blanks.all isIgnored = true) (h : Reads p cs texts a rest) :
    Reads p (blanks ++ cs) texts a rest := by
  have htext : ofText (blanks ++ cs ++ rest) = ofText (cs ++ rest) := by
    rw [List.append_assoc, ofText_skipAll hblanks]
  exact ⟨htext ▸ h.result, htext ▸ h.length_le⟩

theorem Takes.after (hblanks : blanks.all isIgnored = true) (h : Takes p cs texts a rest) :
    Takes p (blanks ++ cs) texts a rest := by
  have htext : ofText (blanks ++ cs ++ rest) = ofText (cs ++ rest) := by
    rw [List.append_assoc, ofText_skipAll hblanks]
  exact ⟨h.toReads.after hblanks, htext ▸ h.length_lt⟩

/-- Blanks behind a text. -/
theorem Reads.before (hblanks : blanks.all isIgnored = true)
    (h : Reads p cs texts a (blanks ++ rest)) : Reads p (cs ++ blanks) texts a rest := by
  have hrest := ofText_skipAll hblanks rest
  refine ⟨?_, ?_⟩
  · rw [List.append_assoc, h.result, hrest]
  · rw [List.append_assoc, ← hrest]
    exact h.length_le

theorem Takes.before (hblanks : blanks.all isIgnored = true)
    (h : Takes p cs texts a (blanks ++ rest)) : Takes p (cs ++ blanks) texts a rest := by
  refine ⟨h.toReads.before hblanks, ?_⟩
  rw [List.append_assoc, ← ofText_skipAll hblanks rest]
  exact h.length_lt

/-! ## Single tokens -/

/-- A reader that takes the first token and no more. -/
theorem Takes.of_token {t : Token} (htext : ofText (cs ++ rest) = t :: ofText rest)
    (hp : p (t :: ofText rest) = .ok (a, ofText rest)) : Takes p cs [] a rest := by
  refine ⟨⟨?_, fun _ => ?_⟩, fun _ => ?_⟩
  · rw [htext, readable_nil, if_pos rfl, hp]
  · rw [htext]
    exact Nat.le_succ _
  · rw [htext]
    exact Nat.lt_succ_self _

theorem takes_name {s : String} (hs : isName s = true) (hrest : EndsName rest) :
    Takes Reader.name s.toList [] s rest :=
  .of_token (ofText_name hs hrest) rfl

theorem isNext_punctuation (c : Char) (ts : List Token) :
    Reader.isNext c (.punctuation c :: ts) = .ok (true, .punctuation c :: ts) := by
  simp [Reader.isNext]

theorem takes_punctuation {c : Char} (hc : isPunctuation c = true) (rest : List Char) :
    Takes (Reader.punctuation c) [c] [] () rest :=
  .of_token (ofText_punctuation hc rest) (by
    rw [Reader.punctuation, bind_ok (isNext_punctuation c _)]
    rfl)

/-! ## Nothing optional follows -/

/-- The text continues with something else than the punctuation character. -/
def NextIsNot (c : Char) (cs : List Char) : Prop :=
  (ofText cs).head? ≠ some (.punctuation c)

theorem isNext_of_nextIsNot {c : Char} (h : NextIsNot c cs) :
    Reader.isNext c (ofText cs) = .ok (false, ofText cs) := by
  rw [Reader.isNext, beq_eq_false_iff_ne.mpr h]

/-- A reader that finds nothing takes nothing. -/
theorem Reads.of_nothing (hp : p (ofText rest) = .ok (a, ofText rest)) : Reads p [] [] a rest :=
  ⟨hp, fun _ => le_refl _⟩

theorem reads_mark_nothing (t : TypeRef) (h : NextIsNot '!' rest) :
    Reads (Reader.mark t) [] [] t rest :=
  .of_nothing (by
    rw [Reader.mark, bind_ok (isNext_of_nextIsNot h)]
    rfl)

theorem reads_defaultValue_nothing (h : NextIsNot '=' rest) :
    Reads Reader.defaultValue [] [] () rest :=
  .of_nothing (by
    rw [Reader.defaultValue, bind_ok (isNext_of_nextIsNot h)]
    rfl)

theorem reads_directives_nothing (h : NextIsNot '@' rest) :
    Reads Reader.directives [] [] () rest :=
  .of_nothing (by
    have hremaining : Reader.remaining (ofText rest) =
      .ok ((ofText rest).length + 1, ofText rest) := rfl
    rw [Reader.directives, bind_ok hremaining, Reader.directivesWithin,
      bind_ok (isNext_of_nextIsNot h)]
    rfl)

/-- Nothing that could belong to a type, or to what has a type, goes on in the text. -/
structure Ends (cs : List Char) : Prop where
  name : EndsName cs
  mark : NextIsNot '!' cs
  value : NextIsNot '=' cs
  directive : NextIsNot '@' cs

/-- The text continues with a name or with a description. -/
def StartsItem (cs : List Char) : Prop :=
  ∃ t ts, ofText cs = t :: ts ∧ ∀ c, t ≠ .punctuation c

theorem StartsItem.nextIsNot (h : StartsItem cs) (c : Char) : NextIsNot c cs := by
  obtain ⟨t, ts, heq, ht⟩ := h
  rw [NextIsNot, heq, List.head?_cons]
  exact fun he => ht c (Option.some.inj he)

theorem StartsItem.ends (h : StartsItem cs) (hname : EndsName cs) : Ends cs :=
  ⟨hname, h.nextIsNot '!', h.nextIsNot '=', h.nextIsNot '@'⟩

theorem StartsItem.after (hblanks : blanks.all isIgnored = true) (h : StartsItem cs) :
    StartsItem (blanks ++ cs) := by
  rw [StartsItem, ofText_skipAll hblanks]
  exact h

/-- The text continues with a name. -/
def StartsName (cs : List Char) : Prop :=
  ∃ s ts, ofText cs = .name s :: ts

theorem StartsName.startsItem (h : StartsName cs) : StartsItem cs := by
  obtain ⟨s, ts, heq⟩ := h
  exact ⟨.name s, ts, heq, fun _ => Token.noConfusion⟩

theorem StartsName.after (hblanks : blanks.all isIgnored = true) (h : StartsName cs) :
    StartsName (blanks ++ cs) := by
  rw [StartsName, ofText_skipAll hblanks]
  exact h

theorem startsName {s : String} (hs : isName s = true) (hrest : EndsName rest) :
    StartsName (s.toList ++ rest) :=
  ⟨s, ofText rest, ofText_name hs hrest⟩

theorem StartsItem.described (level : Nat) (d : Option String) (h : StartsItem cs) :
    StartsItem (describe level d ++ cs) := by
  cases d with
  | none => exact h
  | some text =>
    rw [StartsItem, ofText_describe]
    split
    · exact ⟨_, _, rfl, fun _ => Token.noConfusion⟩
    · exact ⟨_, _, rfl, fun _ => Token.noConfusion⟩

/-! ## Types -/

/-- How many lists are around the named type. -/
def listDepth : TypeRef → Nat
  | .named _ => 0
  | .list item => listDepth item + 1
  | .nonNull inner => listDepth inner

/-- What is left to read of a type when all but a mark behind it has been read. -/
def markOf : TypeRef → Reader TypeRef
  | .nonNull inner => pure (.nonNull inner)
  | t => Reader.mark t

theorem reads_markOf (t : TypeRef) (h : NextIsNot '!' rest) : Reads (markOf t) [] [] t rest := by
  cases t with
  | named name => exact reads_mark_nothing _ h
  | list item => exact reads_mark_nothing _ h
  | nonNull inner => exact .pure _ _

theorem markOf_of_not_excludesNull {t : TypeRef} (h : t.excludesNull = false) :
    markOf t = Reader.mark t := by
  cases t with
  | named name => rfl
  | list item => rfl
  | nonNull inner => exact absurd h (by simp [TypeRef.excludesNull])

theorem nextIsNot_of_punctuation {c d : Char} (hd : isPunctuation d = true) (hne : d ≠ c)
    (rest : List Char) : NextIsNot c (d :: rest) := by
  rw [NextIsNot, ofText_punctuation hd, List.head?_cons]
  exact fun he => hne (Token.punctuation.inj (Option.some.inj he))

theorem text_list (item : TypeRef) (rest : List Char) :
    (TypeRef.list item).text ++ rest = '[' :: (item.text ++ (']' :: rest)) := by
  simp [TypeRef.text]

theorem text_nonNull (inner : TypeRef) (rest : List Char) :
    (TypeRef.nonNull inner).text ++ rest = inner.text ++ ('!' :: rest) := by
  simp [TypeRef.text]

theorem typeWithin_text {t : TypeRef} (ht : t.Printable) :
    ∀ {n : Nat} {rest : List Char}, listDepth t < n → EndsName rest →
      Reader.typeWithin n (ofText (t.text ++ rest)) = markOf t (ofText rest) := by
  induction t with
  | named name =>
    intro n rest hn hrest
    obtain ⟨n, rfl⟩ := Nat.exists_eq_succ_of_ne_zero (Nat.ne_of_gt hn)
    have hname : ofText (name.toList ++ rest) = .name name :: ofText rest := ofText_name ht hrest
    have hnot : NextIsNot '[' (name.toList ++ rest) :=
      (startsName ht hrest).startsItem.nextIsNot '['
    rw [TypeRef.text, Reader.typeWithin, bind_ok (isNext_of_nextIsNot hnot), hname]
    rfl
  | list item ih =>
    intro n rest hn hrest
    obtain ⟨n, rfl⟩ := Nat.exists_eq_succ_of_ne_zero (Nat.ne_of_gt (Nat.zero_lt_of_lt hn))
    have hclose : ofText (']' :: rest) = .punctuation ']' :: ofText rest :=
      ofText_punctuation rfl rest
    have hitem : Reader.typeWithin n (ofText (item.text ++ (']' :: rest))) =
        .ok (item, ofText (']' :: rest)) := by
      rw [ih ht (Nat.lt_of_succ_lt_succ hn) (endsName_cons rfl rest)]
      exact (reads_markOf item (nextIsNot_of_punctuation rfl (by decide) rest)).result
    rw [text_list, ofText_punctuation rfl, Reader.typeWithin, bind_ok (isNext_punctuation '[' _)]
    rw [if_pos rfl]
    have hskip : Reader.skip (.punctuation '[' :: ofText (item.text ++ (']' :: rest))) =
        .ok ((), ofText (item.text ++ (']' :: rest))) := rfl
    have hpunctuation : Reader.punctuation ']' (ofText (']' :: rest)) = .ok ((), ofText rest) :=
      (takes_punctuation rfl rest).result
    rw [bind_ok hskip, bind_ok hitem, bind_ok hpunctuation]
    rfl
  | nonNull inner ih =>
    intro n rest hn hrest
    rw [text_nonNull, ih ht.1 hn (endsName_cons rfl rest), markOf_of_not_excludesNull ht.2,
      ofText_punctuation rfl, Reader.mark, bind_ok (isNext_punctuation '!' _)]
    rfl

/-- A type takes at least as many tokens as it has lists. -/
theorem listDepth_add_length_lt {t : TypeRef} (ht : t.Printable) :
    ∀ {rest : List Char}, EndsName rest →
      listDepth t + (ofText rest).length < (ofText (t.text ++ rest)).length := by
  induction t with
  | named name =>
    intro rest hrest
    rw [TypeRef.text, ofText_name ht hrest, listDepth, List.length_cons]
    omega
  | list item ih =>
    intro rest _
    have hlt := ih ht (endsName_cons (c := ']') rfl rest)
    rw [ofText_punctuation rfl, List.length_cons] at hlt
    rw [text_list, ofText_punctuation rfl, List.length_cons, listDepth]
    omega
  | nonNull inner ih =>
    intro rest _
    have hlt := ih ht.1 (endsName_cons (c := '!') rfl rest)
    rw [ofText_punctuation rfl, List.length_cons] at hlt
    rw [text_nonNull, listDepth]
    omega

theorem takes_typeRef {t : TypeRef} (ht : t.Printable) (hrest : Ends rest) :
    Takes Reader.typeRef t.text [] t rest := by
  have hdepth := listDepth_add_length_lt ht hrest.name
  have hread : Reader.typeRef (ofText (t.text ++ rest)) = .ok (t, ofText rest) := by
    have hremaining : Reader.remaining (ofText (t.text ++ rest)) =
        .ok ((ofText (t.text ++ rest)).length + 1, ofText (t.text ++ rest)) := rfl
    rw [Reader.typeRef, bind_ok hremaining, typeWithin_text ht (by omega) hrest.name]
    exact (reads_markOf t hrest.mark).result
  exact ⟨⟨hread, fun _ => by omega⟩, fun _ => by omega⟩

/-! ## Descriptions -/

/-- A description in front of what begins with a name. -/
theorem Takes.described {level : Nat} {d : Option String} {p : Reader α}
    (hfail : p [.unreadable] = .error [.unreadable]) (h : Takes p cs texts a rest)
    (hstart : StartsName (cs ++ rest)) :
    Takes (Reader.description >>= fun _ => p) (describe level d ++ cs) (d.toList ++ texts) a
      rest := by
  cases d with
  | none =>
    obtain ⟨s, ts, hname⟩ := hstart
    have hnothing : Reader.description (ofText (cs ++ rest)) = .ok ((), ofText (cs ++ rest)) := by
      rw [hname]
      rfl
    refine ⟨⟨?_, h.length_le⟩, h.length_lt⟩
    exact (bind_ok hnothing).trans h.result
  | some text =>
    have htokens : ofText (describe level (some text) ++ cs ++ rest) =
        if text.toList.all isBlockChar then .block (blockText level text) :: ofText (cs ++ rest)
        else [.unreadable] := by
      rw [List.append_assoc, ofText_describe]
    have hlt : readable (text :: texts) = true →
        (ofText rest).length < (ofText (describe level (some text) ++ cs ++ rest)).length := by
      intro hreadable
      rw [readable_cons, Bool.and_eq_true] at hreadable
      rw [htokens, if_pos hreadable.1, List.length_cons]
      exact Nat.lt_succ_of_lt (h.length_lt hreadable.2)
    refine ⟨⟨?_, fun hreadable => (hlt hreadable).le⟩, hlt⟩
    rw [htokens, Option.toList_some, List.singleton_append, readable_cons]
    cases text.toList.all isBlockChar with
    | false =>
      have hnothing : Reader.description [.unreadable] = .ok ((), [.unreadable]) := rfl
      exact (bind_ok hnothing).trans hfail
    | true =>
      have hblock : Reader.description (.block (blockText level text) :: ofText (cs ++ rest)) =
          .ok ((), ofText (cs ++ rest)) := rfl
      exact (bind_ok hblock).trans h.result

/-! ## Items between two characters -/

/-- What the reader of items has to find: the printed items are taken one by one, each begins in a
way that ends the one before it, and the closing character follows. -/
structure Itemised (item : Reader α) (text : γ → List Char) (descriptions : γ → List String)
    (value : γ → α) (l : List γ) : Prop where
  takes : ∀ x ∈ l, ∀ rest, Ends rest → Takes item (text x) (descriptions x) (value x) rest
  starts : ∀ x ∈ l, ∀ rest, StartsItem (text x ++ rest) ∧ EndsName (text x ++ rest)

variable {item : Reader α} {text : γ → List Char} {descriptions : γ → List String}
  {value : γ → α} {l : List γ} {close : Char} {tail : List Char}

theorem Itemised.of_cons {x : γ} (h : Itemised item text descriptions value (x :: l)) :
    Itemised item text descriptions value l :=
  ⟨fun y hy => h.takes y (List.mem_cons_of_mem x hy),
    fun y hy => h.starts y (List.mem_cons_of_mem x hy)⟩

/-- What follows an item ends it. -/
theorem Itemised.ends (h : Itemised item text descriptions value l) (htail : Ends tail) :
    Ends (l.flatMap text ++ tail) := by
  cases l with
  | nil => exact htail
  | cons x l =>
    rw [List.flatMap_cons, List.append_assoc]
    obtain ⟨hitem, hname⟩ := h.starts x (List.mem_cons_self ..) (l.flatMap text ++ tail)
    exact hitem.ends hname

theorem Itemised.itemsUntil (hclose : ofText tail = .punctuation close :: ofText rest)
    (htail : Ends tail) :
    ∀ {l : List γ} {n : Nat}, Itemised item text descriptions value l →
      (ofText (l.flatMap text ++ tail)).length < n →
      Reader.itemsUntil close item n (ofText (l.flatMap text ++ tail)) =
        if readable (l.flatMap descriptions) then .ok (l.map value, ofText rest)
        else .error [.unreadable] := by
  intro l
  induction l with
  | nil =>
    intro n _ hn
    obtain ⟨n, rfl⟩ := Nat.exists_eq_succ_of_ne_zero (Nat.ne_of_gt (Nat.zero_lt_of_lt hn))
    have htokens : ofText (([] : List γ).flatMap text ++ tail) =
        .punctuation close :: ofText rest := hclose
    rw [htokens, Reader.itemsUntil, bind_ok (isNext_punctuation close _)]
    rfl
  | cons x l ih =>
    intro n h hn
    obtain ⟨n, rfl⟩ := Nat.exists_eq_succ_of_ne_zero (Nat.ne_of_gt (Nat.zero_lt_of_lt hn))
    have hmem : x ∈ x :: l := List.mem_cons_self ..
    have htake := h.takes x hmem _ (h.of_cons.ends htail)
    have hnot := (h.starts x hmem (l.flatMap text ++ tail)).1.nextIsNot close
    have htokens : (x :: l).flatMap text ++ tail = text x ++ (l.flatMap text ++ tail) := by
      rw [List.flatMap_cons, List.append_assoc]
    rw [htokens] at hn ⊢
    rw [Reader.itemsUntil, bind_ok (isNext_of_nextIsNot hnot), if_neg Bool.false_ne_true,
      List.flatMap_cons, readable_append]
    have hresult := htake.result
    cases hx : readable (descriptions x) with
    | false =>
      rw [hx, if_neg Bool.false_ne_true] at hresult
      exact bind_error hresult
    | true =>
      have hlt := htake.length_lt hx
      have hrest := ih h.of_cons (show _ < n by omega)
      rw [hx, if_pos rfl] at hresult
      rw [bind_ok hresult, Bool.true_and]
      cases hl : readable (l.flatMap descriptions) with
      | false =>
        rw [hl, if_neg Bool.false_ne_true] at hrest
        exact bind_error hrest
      | true =>
        rw [hl, if_pos rfl] at hrest
        exact bind_ok hrest

theorem Itemised.length_le (htail : Ends tail) :
    ∀ {l : List γ}, Itemised item text descriptions value l →
      readable (l.flatMap descriptions) = true →
      (ofText tail).length ≤ (ofText (l.flatMap text ++ tail)).length := by
  intro l
  induction l with
  | nil => exact fun _ _ => le_refl _
  | cons x l ih =>
    intro h hreadable
    rw [List.flatMap_cons] at hreadable
    obtain ⟨hx, hl⟩ := readable_of_append hreadable
    have hlt := (h.takes x (List.mem_cons_self ..) _ (h.of_cons.ends htail)).length_lt hx
    rw [List.flatMap_cons, List.append_assoc]
    exact (ih h.of_cons hl).trans hlt.le

theorem endsName_of_isIgnored {c : Char} (hc : isIgnored c = true) (rest : List Char) :
    EndsName (c :: rest) := by
  refine endsName_cons ?_ rest
  rw [Bool.eq_false_iff]
  intro hname
  rw [not_isIgnored_of_isNameChar hname] at hc
  exact absurd hc (by simp)

/-- A closing parenthesis or brace ends what stands before it, also behind blanks. -/
theorem ends_closing (hclose : close = ')' ∨ close = '\x7d') (hblanks : blanks.all isIgnored = true)
    (rest : List Char) : Ends (blanks ++ close :: rest) := by
  have hnext : ∀ c, c ≠ ')' → c ≠ '\x7d' → NextIsNot c (blanks ++ close :: rest) := by
    intro c hparen hbrace
    rw [NextIsNot, ofText_skipAll hblanks]
    rcases hclose with rfl | rfl
    · exact nextIsNot_of_punctuation rfl (Ne.symm hparen) rest
    · exact nextIsNot_of_punctuation rfl (Ne.symm hbrace) rest
  refine ⟨?_, hnext '!' (by decide) (by decide), hnext '=' (by decide) (by decide),
    hnext '@' (by decide) (by decide)⟩
  cases blanks with
  | nil => rcases hclose with rfl | rfl <;> exact endsName_cons rfl rest
  | cons c blanks =>
    rw [List.all_cons, Bool.and_eq_true] at hblanks
    exact endsName_of_isIgnored hblanks.1 _

/-- The closing character behind blanks. -/
theorem ofText_closing (hclose : close = ')' ∨ close = '\x7d')
    (hblanks : blanks.all isIgnored = true) (rest : List Char) :
    ofText (blanks ++ close :: rest) = .punctuation close :: ofText rest := by
  rw [ofText_skipAll hblanks]
  rcases hclose with rfl | rfl <;> exact ofText_punctuation rfl rest

/-- The items behind the first one, and the closing character. -/
theorem Itemised.reads (h : Itemised item text descriptions value l)
    (hclose : close = ')' ∨ close = '\x7d') (hblanks : blanks.all isIgnored = true) (a : α)
    (rest : List Char) :
    Reads (do let n ← Reader.remaining; return a :: (← Reader.itemsUntil close item n))
      (l.flatMap text ++ (blanks ++ [close])) (l.flatMap descriptions) (a :: l.map value)
      rest := by
  have htext : l.flatMap text ++ (blanks ++ [close]) ++ rest =
      l.flatMap text ++ (blanks ++ close :: rest) := by
    simp
  have htail := ends_closing hclose hblanks rest
  have htokens := ofText_closing hclose hblanks rest
  refine ⟨?_, fun hreadable => ?_⟩
  · have hitems := Itemised.itemsUntil htokens htail h (Nat.lt_succ_self _)
    have hremaining : Reader.remaining (ofText (l.flatMap text ++ (blanks ++ close :: rest))) =
        .ok ((ofText (l.flatMap text ++ (blanks ++ close :: rest))).length + 1,
          ofText (l.flatMap text ++ (blanks ++ close :: rest))) := rfl
    rw [htext, bind_ok hremaining]
    cases hl : readable (l.flatMap descriptions) with
    | false =>
      rw [hl, if_neg Bool.false_ne_true] at hitems
      exact bind_error hitems
    | true =>
      rw [hl, if_pos rfl] at hitems
      exact bind_ok hitems
  · have hle := Itemised.length_le htail h hreadable
    rw [htokens, List.length_cons] at hle
    rw [htext]
    omega

theorem takes_enclosedSome {opening : Char} (hopening : isPunctuation opening = true)
    (hclose : close = ')' ∨ close = '\x7d') (hblanks : blanks.all isIgnored = true)
    (hfirst : Takes item cs texts a (l.flatMap text ++ (blanks ++ close :: rest)))
    (h : Itemised item text descriptions value l) :
    Takes (Reader.enclosedSome opening close item)
      (opening :: (cs ++ (l.flatMap text ++ (blanks ++ [close]))))
      (texts ++ l.flatMap descriptions) (a :: l.map value) rest := by
  have hrest : l.flatMap text ++ (blanks ++ close :: rest) =
      l.flatMap text ++ (blanks ++ [close]) ++ rest := by
    simp
  rw [hrest] at hfirst
  exact (takes_punctuation hopening _).bind
    (hfirst.toReads.bind (h.reads hclose hblanks a rest))

/-- A first item and further ones between two characters. -/
theorem takes_optionalSome {opening : Char} (hopening : isPunctuation opening = true)
    (hclose : close = ')' ∨ close = '\x7d') (hblanks : blanks.all isIgnored = true)
    (hfirst : Takes item cs texts a (l.flatMap text ++ (blanks ++ close :: rest)))
    (h : Itemised item text descriptions value l) :
    Takes (Reader.optionalSome opening close item)
      (opening :: (cs ++ (l.flatMap text ++ (blanks ++ [close]))))
      (texts ++ l.flatMap descriptions) (a :: l.map value) rest := by
  have henclosed := takes_enclosedSome hopening hclose hblanks hfirst h
  have hresult := henclosed.result
  refine ⟨⟨?_, henclosed.length_le⟩, henclosed.length_lt⟩
  rw [List.cons_append, ofText_punctuation hopening] at hresult ⊢
  rw [Reader.optionalSome, bind_ok (isNext_punctuation opening _)]
  exact hresult

theorem reads_optionalSome_nothing {opening : Char} (h : NextIsNot opening rest) :
    Reads (Reader.optionalSome opening close item) [] [] [] rest :=
  .of_nothing (by
    rw [Reader.optionalSome, bind_ok (isNext_of_nextIsNot h)]
    rfl)

end ApiGraph.GraphQL.Sdl
