import ApiGraph.Generator.Step
import ApiGraph.Proofs.Generator.Compiled

/-!
# What a session remembers

A session goes from step to step, and steps may fail.  What it remembers is how often the service
was called and the printed schema, once a step has obtained it; the answers do not depend on how it
got there.

Every step comes down to one question for the printed schema or to none (`perform_eq`).  The
question is answered from memory, without a call, or by one call (`printedSchema_of_some`,
`printedSchema_of_none`).

* `InUse.perform`, `InUse.after`: the invariant of a session, for one step and for all.
* `calls_after`: how often the service has been called.
* `independent_after`: calls, failures and answers in all sessions.
-/

namespace ApiGraph.Generator

open ApiGraph.Engine (configurationFor)
open ApiGraph.Generation (schemaOf)

/-- A service that refuses the first calls, after some calls. -/
def Service.afterCalls (refused calls : Nat) : Service :=
  { calls, refusals := refused - calls }

/-- The printed schema of a document. -/
def printedSchemaOf (j : Json) : Except Failure PrintedSchema :=
  ((schemaOf j).mapError Failure.ofFault).bind PrintedSchema.ofSchema

namespace Session

/-- A generator that begins to work on a document, while the service refuses the first calls. -/
def opened (j : Json) (refused : Nat) : Session :=
  { document := j, service := .afterCalls refused 0 }

/-- The failure of a step for which the service refuses to work. -/
def refusal : Failure :=
  .schemaGeneration .refused

variable {j : Json} {refused : Nat} {s : Session} {step : Step}

/-! ## One step -/

/-- What a step gives, given the document and the printed schema. -/
def Step.answer (j : Json) (printed : Except Failure PrintedSchema) : Step → Except Failure Answer
  | .document => .ok (.document j)
  | .schema => printed.map .schema
  | .generate name url headers =>
    printed.map fun p => .configuration (configurationFor p.document name url headers)
  | .settings toml =>
    match Settings.read toml with
    | .error f => .error f
    | .ok found => printed.map fun p => .configuration
        (configurationFor p.document found.name found.url (found.mergedHeaders?.getD []))

theorem map_map {ε α β γ : Type} (x : Except ε α) (f : α → β) (g : β → γ) :
    (x.map f).map g = x.map fun a => g (f a) := by
  cases x <;> rfl

/-- A step asks for the printed schema if it needs it, and does nothing else. -/
theorem perform_eq (s : Session) (step : Step) :
    s.perform step = (step.answer s.document s.printedSchema.1,
      if step.needsSchema then s.printedSchema.2 else s) := by
  cases step with
  | document => rfl
  | schema => rfl
  | generate name url headers => exact Prod.ext (map_map ..) rfl
  | settings toml =>
    cases hread : Settings.read toml with
    | error f => simp [perform, Step.answer, Step.needsSchema, hread, Except.isOk, Except.toBool]
    | ok found =>
      simp only [perform, Step.answer, Step.needsSchema, hread, Except.isOk, Except.toBool]
      exact Prod.ext (map_map ..) rfl

/-- A step that needs the schema has an answer exactly if the schema is there. -/
theorem isOk_answer (h : step.needsSchema = true) (printed : Except Failure PrintedSchema) :
    (step.answer j printed).isOk = printed.isOk := by
  cases step with
  | document => exact nomatch h
  | schema => cases printed <;> rfl
  | generate name url headers => cases printed <;> rfl
  | settings toml =>
    rw [Step.needsSchema] at h
    cases hread : Settings.read toml with
    | error f => rw [hread] at h; exact nomatch h
    | ok found => simp only [Step.answer, hread]; cases printed <;> rfl

/-- Why there is no schema is also why there is no answer. -/
theorem answer_error (h : step.needsSchema = true) (f : Failure) :
    step.answer j (.error f) = .error f := by
  cases step with
  | document => exact nomatch h
  | schema | generate => rfl
  | settings toml =>
    rw [Step.needsSchema] at h
    cases hread : Settings.read toml with
    | error f => rw [hread] at h; exact nomatch h
    | ok found => simp only [Step.answer, hread]; rfl

/-- The other steps do not look at it. -/
theorem answer_congr (h : step.needsSchema = false)
    (printed printed' : Except Failure PrintedSchema) :
    step.answer j printed = step.answer j printed' := by
  cases step with
  | document => rfl
  | schema | generate => exact Bool.noConfusion h
  | settings toml =>
    rw [Step.needsSchema] at h
    cases hread : Settings.read toml with
    | error f => simp only [Step.answer, hread]
    | ok found =>
      rw [hread] at h
      exact Bool.noConfusion h

/-! ## The question for the schema -/

/-- What was kept is there without a call. -/
theorem printedSchema_of_some {printed : PrintedSchema} (h : s.schema = some printed) :
    s.printedSchema = (.ok printed, s) := by
  simp only [printedSchema, h]

/-- As long as nothing was kept, the service is called, and it is kept what comes of that. -/
theorem printedSchema_of_none (h : s.schema = none) :
    s.printedSchema = ((s.service.request s.document).1.bind PrintedSchema.ofSchema,
      { s with
        service := (s.service.request s.document).2
        schema := ((s.service.request s.document).1.bind PrintedSchema.ofSchema).toOption }) := by
  simp only [printedSchema, h]
  cases (s.service.request s.document).1.bind PrintedSchema.ofSchema with
  | error f => rfl
  | ok printed => rfl

theorem request_afterCalls (refused calls : Nat) (j : Json) :
    ((Service.afterCalls refused calls).request j).2 = .afterCalls refused (calls + 1) ∧
      ((Service.afterCalls refused calls).request j).1.bind PrintedSchema.ofSchema =
        if calls < refused then .error refusal else printedSchemaOf j := by
  refine ⟨?_, ?_⟩
  · simp only [Service.request, Service.afterCalls, Service.mk.injEq, true_and]
    omega
  · by_cases h : calls < refused
    · have hnot : (refused - calls == 0) = false := by simpa using Nat.sub_ne_zero_of_lt h
      simp only [Service.request, Service.afterCalls, hnot, h, if_true]
      rfl
    · have hzero : (refused - calls == 0) = true := by
        simpa using Nat.sub_eq_zero_of_le (not_lt.mp h)
      simp only [Service.request, Service.afterCalls, hzero, h, if_true, if_false]
      rfl

/-! ## Sessions -/

/-- What every step keeps: the document, a service that has answered some calls, and of the printed
schema what the document says. -/
structure InUse (j : Json) (refused : Nat) (s : Session) : Prop where
  document : s.document = j
  service : s.service = .afterCalls refused s.service.calls
  kept : ∀ printed, s.schema = some printed → printedSchemaOf j = .ok printed

theorem inUse_opened (j : Json) (refused : Nat) : (opened j refused).InUse j refused where
  document := rfl
  service := rfl
  kept := nofun

namespace InUse

variable (h : s.InUse j refused)
include h

/-- The schema comes from the document, or the service refuses to work. -/
theorem schema_eq :
    s.printedSchema.1 = printedSchemaOf j ∨
      s.service.calls < refused ∧ s.printedSchema.1 = .error refusal := by
  cases hkept : s.schema with
  | some printed =>
    rw [printedSchema_of_some hkept, h.kept printed hkept]
    exact Or.inl rfl
  | none =>
    have hmade := (request_afterCalls refused s.service.calls s.document).2
    rw [← h.service, h.document] at hmade
    rw [printedSchema_of_none hkept, h.document, hmade]
    by_cases hrefused : s.service.calls < refused
    · exact Or.inr ⟨hrefused, if_pos hrefused⟩
    · exact Or.inl (if_neg hrefused)

/-- As long as nothing was kept, a question is a call, and its answer is kept. -/
theorem next_of_none (hkept : s.schema = none) :
    s.printedSchema.2 =
      { s with
        service := .afterCalls refused (s.service.calls + 1)
        schema := s.printedSchema.1.toOption } := by
  have hservice := (request_afterCalls refused s.service.calls s.document).1
  rw [← h.service] at hservice
  rw [printedSchema_of_none hkept, hservice]

theorem printedSchema : s.printedSchema.2.InUse j refused := by
  cases hkept : s.schema with
  | some printed =>
    rw [printedSchema_of_some hkept]
    exact h
  | none =>
    rw [h.next_of_none hkept]
    refine ⟨h.document, rfl, fun printed hprinted => ?_⟩
    rcases h.schema_eq with hanswer | ⟨-, hanswer⟩
    · rw [hanswer] at hprinted
      cases hmade : printedSchemaOf j with
      | error f => rw [hmade] at hprinted; exact nomatch hprinted
      | ok made => rw [hmade] at hprinted; exact congrArg Except.ok (Option.some.inj hprinted)
    · rw [hanswer] at hprinted
      exact nomatch hprinted

/-- The invariant, for one step. -/
theorem perform (step : Step) : (s.perform step).2.InUse j refused := by
  rw [perform_eq]
  cases step.needsSchema with
  | true => exact h.printedSchema
  | false => exact h

/-- A step that fails takes nothing from the session and adds nothing to it but a call. -/
theorem next_of_fails (hfails : (s.perform step).1.isOk = false) :
    (s.perform step).2 =
      { s with
        service := .afterCalls refused
          (s.service.calls + if step.needsSchema then 1 else 0) } := by
  rw [perform_eq] at hfails ⊢
  simp only at hfails ⊢
  cases hneeds : step.needsSchema with
  | false =>
    rw [if_neg Bool.false_ne_true, if_neg Bool.false_ne_true, Nat.add_zero, ← h.service]
  | true =>
    rw [if_pos rfl, if_pos rfl]
    rw [isOk_answer hneeds] at hfails
    cases hkept : s.schema with
    | some printed =>
      rw [printedSchema_of_some hkept] at hfails
      exact nomatch hfails
    | none =>
      have hnothing : s.printedSchema.1.toOption = none := by
        cases hanswer : s.printedSchema.1 with
        | error f => rfl
        | ok printed => rw [hanswer] at hfails; exact nomatch hfails
      rw [h.next_of_none hkept, hnothing, ← hkept]

/-- A step has the answer that it has in the beginning, or the service refuses to work. -/
theorem answer_eq (step : Step) :
    (s.perform step).1 = (({ document := j } : Session).perform step).1 ∨
      step.needsSchema = true ∧ s.service.calls < refused ∧
        (s.perform step).1 = .error refusal := by
  have hfresh : ({ document := j } : Session).printedSchema.1 = printedSchemaOf j := by
    rw [printedSchema_of_none rfl]
    exact (request_afterCalls 0 0 j).2
  rw [perform_eq, perform_eq, hfresh, h.document]
  simp only
  cases hneeds : step.needsSchema with
  | false => exact Or.inl (answer_congr hneeds ..)
  | true =>
    rcases h.schema_eq with hanswer | ⟨hrefused, hanswer⟩
    · exact Or.inl (congrArg (Step.answer j · step) hanswer)
    · refine Or.inr ⟨rfl, hrefused, ?_⟩
      rw [hanswer, answer_error hneeds]

/-- The invariant, for a whole session. -/
theorem after (steps : List Step) : (s.after steps).InUse j refused := by
  induction steps generalizing s with
  | nil => exact h
  | cons step rest ih => exact ih (h.perform step)

/-- The service is called once for every step that needs the schema, until one obtains it. -/
theorem calls_after (steps : List Step) :
    (s.after steps).service.calls =
      s.service.calls + if s.schema.isSome then 0 else (s.untilObtained steps).length := by
  induction steps generalizing s with
  | nil => exact congrArg (s.service.calls + ·) (ite_self 0).symm
  | cons step rest ih =>
    have hrest := ih (h.perform step)
    rw [Session.after, List.foldl_cons, ← Session.after, hrest, untilObtained]
    cases hneeds : step.needsSchema with
    | false =>
      have hsame : (s.perform step).2 = s := by rw [perform_eq, hneeds, if_neg Bool.false_ne_true]
      rw [hsame, Bool.not_false, if_pos rfl]
    | true =>
      have hanswer : (s.perform step).1.isOk = s.printedSchema.1.isOk := by
        rw [perform_eq, isOk_answer hneeds]
      have hnext : (s.perform step).2 = s.printedSchema.2 := by rw [perform_eq, hneeds, if_pos rfl]
      rw [hanswer, hnext, Bool.not_true, if_neg Bool.false_ne_true]
      cases hkept : s.schema with
      | some printed => rw [printedSchema_of_some hkept, hkept]; rfl
      | none =>
        rw [h.next_of_none hkept]
        cases hgiven : s.printedSchema.1 with
        | error f => exact Nat.succ_add_eq_add_succ ..
        | ok printed => rfl

end InUse

/-- What a step does in a session does not depend on what came before, except for refusals. -/
structure Independent (j : Json) (refused : Nat) (s : Session) (step : Step) : Prop where
  /-- An answer is the one that the step has in the beginning if the service refuses nothing. -/
  answer : ∀ a, (s.perform step).1 = .ok a → (({ document := j } : Session).perform step).1 = .ok a
  /-- So is a failure, unless it comes from one of the calls that are refused. -/
  failure : ∀ f, (s.perform step).1 = .error f →
    (({ document := j } : Session).perform step).1 = .error f ∨
      step.needsSchema = true ∧ s.service.calls < refused ∧ f = refusal
  /-- After a failure the session is what it was, but for the call. -/
  unchanged : ∀ f, (s.perform step).1 = .error f →
    (s.perform step).2 =
      { s with
        service := .afterCalls refused (s.service.calls + if step.needsSchema then 1 else 0) }

/-- In every session the service is called once for each step that needs the schema, up to and
including the first one that obtains it, and no step depends on those before it. -/
theorem independent_after (j : Json) (refused : Nat) (steps : List Step) :
    ((opened j refused).after steps).service =
        .afterCalls refused ((opened j refused).untilObtained steps).length ∧
      ∀ step, Independent j refused ((opened j refused).after steps) step := by
  have hopened := inUse_opened j refused
  have hafter := hopened.after steps
  refine ⟨?_, fun step => ⟨fun a hanswer => ?_, fun f hfails => ?_, fun f hfails => ?_⟩⟩
  · rw [hafter.service, hopened.calls_after steps]
    exact congrArg (Service.afterCalls refused) (Nat.zero_add _)
  · rcases hafter.answer_eq step with hsame | ⟨-, -, hrefused⟩
    · rw [← hsame, hanswer]
    · exact nomatch hanswer.symm.trans hrefused
  · rcases hafter.answer_eq step with hsame | ⟨hneeds, hcalls, hrefused⟩
    · exact Or.inl (hsame.symm.trans hfails)
    · exact Or.inr ⟨hneeds, hcalls, Except.error.inj (hfails.symm.trans hrefused)⟩
  · exact hafter.next_of_fails (by rw [hfails]; rfl)

/-- Steps that fail and steps that do not, before and after the schema is there. -/
def petSteps : List Step :=
  [.settings "name", .schema, .document, .schema, .settings ""]

/-- The configuration for a document with one operation. -/
def summarisedConfiguration : Engine.Configuration :=
  { dataSources := [{ kind := .graphql, name := "pets", attributes := [.url "http://pets"] }]
    resolvers := [{ typeName := "Query", dataSource := 0, fieldNames := ["pets"]
                    attributes := [.url "http://pets"] }]
    mappings := [] }

/-- The first call is refused, the second one obtains the schema, and there is no third one. -/
theorem independent_pets :
    ((opened (summarised "Pets") 1).after petSteps).service = .afterCalls 1 2 ∧
      (((opened (summarised "Pets") 1).after petSteps).perform
        (.generate "pets" "http://pets" [])).1 = .ok (.configuration summarisedConfiguration) ∧
      (({ document := summarised "Pets" } : Session).perform
        (.generate "pets" "http://pets" [])).1 = .ok (.configuration summarisedConfiguration) ∧
      (((opened (summarised "Pets") 1).after petSteps).perform (.settings "name")).1 =
        .error .invalidSettings ∧
      (((opened (summarised "Pets") 1).after petSteps).perform (.settings "name")).2.service =
        .afterCalls 1 2 := by
  have hsound := independent_after (summarised "Pets") 1 petSteps
  have hcalls : ((opened (summarised "Pets") 1).untilObtained petSteps).length = 2 := by
    decide +kernel
  have hschema : schemaOf (summarised "Pets") = .ok (summarisedSchema "Pets") := by decide +kernel
  have hgenerate := generate_fresh hschema rfl "pets" "http://pets" []
  have hconfig : ∀ s : Session, (s.perform (.generate "pets" "http://pets" [])).1 =
      (s.generate "pets" "http://pets" []).1.map .configuration := fun _ => rfl
  have hcompiled : configurationFor (summarisedSchema "Pets").printedDocument "pets"
      "http://pets" [] = summarisedConfiguration := by decide +kernel
  have hfresh : (({ document := summarised "Pets" } : Session).perform
      (.generate "pets" "http://pets" [])).1 = .ok (.configuration summarisedConfiguration) := by
    rw [hconfig, hgenerate, hcompiled]
    rfl
  have hservice := hcalls ▸ hsound.1
  have hanswer : (((opened (summarised "Pets") 1).after petSteps).perform
      (.generate "pets" "http://pets" [])).1 = .ok (.configuration summarisedConfiguration) := by
    rcases ((inUse_opened _ 1).after petSteps).answer_eq (.generate "pets" "http://pets" []) with
      hsame | ⟨-, hrefused, -⟩
    · rw [hsame, hfresh]
    · rw [hservice] at hrefused
      exact absurd hrefused (by decide)
  have hunread : Settings.read "name" = .error .invalidSettings := by decide +kernel
  have hfails : (((opened (summarised "Pets") 1).after petSteps).perform (.settings "name")).1 =
      .error .invalidSettings := by simp only [perform, hunread]
  have hunchanged := (hsound.2 (.settings "name")).unchanged _ hfails
  have hneeds : (Step.settings "name").needsSchema = false := by rw [Step.needsSchema, hunread]; rfl
  refine ⟨hservice, hanswer, (hsound.2 _).answer _ hanswer, hfails, ?_⟩
  rw [hunchanged, hneeds, hservice]
  rfl

end Session

end ApiGraph.Generator
