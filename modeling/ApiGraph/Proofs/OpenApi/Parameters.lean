import ApiGraph.OpenApi.Endpoint

/-!
# The parameters of an endpoint

An endpoint has the parameters of its operation, and those of its path that are not overridden.
References can be followed first, for all of them at once: what a parameter is does not depend on the
parameters before it (`ownParameters_eq`, `inheritParameters_eq`).

A parameter of the path is left out if there is one of its name already.  That one need not belong to
the operation: where the path itself has several parameters of one name, in different locations, only
the first of them is kept.

* `parameters_ofOperation`: the parameters of an endpoint, and when they are all that were declared
  and not overridden.
* `parameters_sharedIds`: a path with a query field and a header field of one name.
-/

namespace ApiGraph.OpenApi.Endpoint

variable {c : Components}

/-- The parameters with their references followed. -/
def follow (c : Components) (ps : List (RefOr Parameter)) : Except Problem (List Parameter) :=
  ps.mapM (resolveParameter c)

/-- The parameters that are no cookies, as the endpoint has them. -/
def registered (ps : List Parameter) : List EndpointParameter :=
  ps.filterMap parameter?

/-- The parameters of which there is none with the same name in `known`. -/
def unknown (known ps : List EndpointParameter) : List EndpointParameter :=
  ps.filter fun p => p.name ∉ known.map (·.name)

/-- Of parameters with the same name the first one. -/
def firstOfName (ps : List EndpointParameter) : List EndpointParameter :=
  ps.eraseDupsBy fun p q => p.name == q.name

/-! ## First ones of their names -/

theorem name_parameter? {p : Parameter} {q : EndpointParameter} (h : parameter? p = some q) :
    q.name = p.name := by
  rw [parameter?] at h
  split at h
  · exact nomatch h
  · rw [← Option.some.inj h]

theorem firstOfName_cons (p : EndpointParameter) (rest : List EndpointParameter) :
    firstOfName (p :: rest) = p :: firstOfName (unknown [p] rest) := by
  have hfilter : (rest.filter fun q => (q.name == p.name) = false) = unknown [p] rest := by
    refine List.filter_congr fun q _ => ?_
    simp
  rw [firstOfName, List.eraseDupsBy_cons, hfilter, firstOfName]

theorem unknown_unknown (known more ps : List EndpointParameter) :
    unknown more (unknown known ps) = unknown (known ++ more) ps := by
  rw [unknown, unknown, unknown, List.filter_filter]
  refine List.filter_congr fun p _ => ?_
  rw [List.map_append, ← Bool.decide_and, decide_eq_decide, List.mem_append, not_or]
  exact and_comm

theorem length_firstOfName_le (ps : List EndpointParameter) :
    (firstOfName ps).length ≤ ps.length := by
  induction hn : ps.length using Nat.strongRecOn generalizing ps with
  | ind n ih =>
    cases ps with
    | nil => exact Nat.zero_le _
    | cons p rest =>
      have hle : (unknown [p] rest).length ≤ rest.length := List.length_filter_le ..
      rw [List.length_cons] at hn
      have hrest := ih _ (by omega) (unknown [p] rest) rfl
      rw [firstOfName_cons, List.length_cons]
      omega

/-- The first ones of their names are all if no name repeats. -/
theorem firstOfName_eq_self_iff (ps : List EndpointParameter) :
    firstOfName ps = ps ↔ (ps.map (·.name)).Nodup := by
  induction ps with
  | nil => exact ⟨fun _ => List.nodup_nil, fun _ => rfl⟩
  | cons p rest ih =>
    have hnew : unknown [p] rest = rest ↔ p.name ∉ rest.map (·.name) := by
      rw [unknown, List.filter_eq_self, List.mem_map]
      simp only [List.map_singleton, List.mem_singleton, decide_eq_true_eq, not_exists, not_and]
    rw [firstOfName_cons, List.map_cons, List.nodup_cons, ← hnew, ← ih, List.cons.injEq]
    constructor
    · rintro ⟨-, hrest⟩
      -- Nothing was taken out, as nothing comes back.
      have hlength := length_firstOfName_le (unknown [p] rest)
      rw [hrest] at hlength
      have hall : unknown [p] rest = rest :=
        List.filter_sublist.eq_of_length_le hlength
      rw [hall] at hrest
      exact ⟨hall, hrest⟩
    · rintro ⟨hall, hrest⟩
      rw [hall]
      exact ⟨rfl, hrest⟩

/-! ## References first -/

theorem follow_cons (p : RefOr Parameter) (rest : List (RefOr Parameter)) :
    follow c (p :: rest) =
      (resolveParameter c p >>= fun p => follow c rest >>= fun rest => .ok (p :: rest)) :=
  List.mapM_cons

theorem registered_cons (p : Parameter) (rest : List Parameter) :
    registered (p :: rest) = (parameter? p).toList ++ registered rest := by
  rw [registered, List.filterMap_cons, registered]
  cases parameter? p <;> rfl

theorem ownParameters_eq (ps : List (RefOr Parameter)) :
    ownParameters c ps = (follow c ps).map registered := by
  induction ps with
  | nil => rfl
  | cons p rest ih =>
    rw [ownParameters, follow_cons, ih]
    cases resolveParameter c p with
    | error e => rfl
    | ok p =>
      cases follow c rest with
      | error e => rfl
      | ok rest => exact congrArg Except.ok (registered_cons p rest).symm

/-- What one parameter of a path adds to those that are known. -/
theorem firstOfName_unknown_registered_cons (known : List EndpointParameter) (p : Parameter)
    (rest : List Parameter) :
    let added := if known.any fun k => k.name == p.name then [] else (parameter? p).toList
    known ++ firstOfName (unknown known (registered (p :: rest))) =
      known ++ added ++ firstOfName (unknown (known ++ added) (registered rest)) := by
  intro added
  have hknown : (known.any fun k => k.name == p.name) = true ↔ p.name ∈ known.map (·.name) := by
    rw [List.any_eq_true, List.mem_map]
    simp only [beq_iff_eq]
  rw [registered_cons]
  cases hp : parameter? p with
  | none =>
    have hadded : added = [] := by
      simp only [added, hp, Option.toList_none, ite_self]
    rw [hadded, List.append_nil, Option.toList_none, List.nil_append]
  | some q =>
    have hname := name_parameter? hp
    by_cases hmem : p.name ∈ known.map (·.name)
    · have hadded : added = [] := if_pos (hknown.mpr hmem)
      have hout : unknown known (q :: registered rest) = unknown known (registered rest) :=
        List.filter_cons_of_neg (by simpa [hname] using hmem)
      rw [hadded, List.append_nil, Option.toList_some, List.singleton_append, hout]
    · have hadded : added = [q] := by
        simp only [added, hp, if_neg (mt hknown.mp hmem), Option.toList_some]
      have hin : unknown known (q :: registered rest) = q :: unknown known (registered rest) :=
        List.filter_cons_of_pos (by simpa [hname] using hmem)
      rw [hadded, Option.toList_some, List.singleton_append, hin, firstOfName_cons,
        unknown_unknown, List.append_assoc, List.singleton_append]

theorem inheritParameters_eq (known : List EndpointParameter) (ps : List (RefOr Parameter)) :
    inheritParameters c known ps =
      (follow c ps).map fun shared => known ++ firstOfName (unknown known (registered shared)) := by
  induction ps generalizing known with
  | nil => exact congrArg Except.ok (List.append_nil known).symm
  | cons p rest ih =>
    rw [inheritParameters, follow_cons]
    cases resolveParameter c p with
    | error e => rfl
    | ok p =>
      have hrest := ih (known ++ if known.any fun k => k.name == p.name then []
        else (parameter? p).toList)
      refine hrest.trans ?_
      cases follow c rest with
      | error e => rfl
      | ok rest => exact congrArg Except.ok (firstOfName_unknown_registered_cons known p rest).symm

/-! ## Endpoints -/

variable {path : String} {method : Method} {o : Operation} {inherited : List (RefOr Parameter)}
  {body : Option EndpointBody} {response : Option (RefOr Schema)} {own shared : List Parameter}

/-- The endpoint of an operation all of whose references can be followed. -/
theorem ofOperation_of_follow (hbody : resolveBody c o.requestBody = .ok body)
    (hresponse : firstAnswer c o.responses = .ok response)
    (hown : follow c o.parameters = .ok own) (hshared : follow c inherited = .ok shared) :
    ofOperation c path method o inherited = .ok
      { path, method, operationId := o.operationId
        description := o.summary.or o.description
        parameters := registered own ++ firstOfName (unknown (registered own) (registered shared))
        body, response } := by
  rw [ofOperation, hbody, hresponse, ownParameters_eq, hown]
  simp only [bind, Except.bind, Except.map, inheritParameters_eq, hshared]
  rfl

/-- When all references can be followed, there is an endpoint with the parameters of the operation
and, of those of the path that it does not override, the first ones of their names.  So none of these
is lost if no two of them have the same name, and only then: it is not always the same to declare
parameters on the path and on the operation. -/
theorem parameters_ofOperation (hbody : resolveBody c o.requestBody = .ok body)
    (hresponse : firstAnswer c o.responses = .ok response)
    (hown : follow c o.parameters = .ok own) (hshared : follow c inherited = .ok shared) :
    ∃ e, ofOperation c path method o inherited = .ok e ∧
      e.parameters =
        registered own ++ firstOfName (unknown (registered own) (registered shared)) ∧
      (e.parameters = registered own ++ unknown (registered own) (registered shared) ↔
        ((unknown (registered own) (registered shared)).map (·.name)).Nodup) ∧
      (o.parameters = [] →
        (ofOperation c path method { o with parameters := inherited } [] = .ok e ↔
          ((registered shared).map (·.name)).Nodup)) := by
  refine ⟨_, ofOperation_of_follow hbody hresponse hown hshared, rfl, ?_, fun hnone => ?_⟩
  · rw [List.append_cancel_left_eq, firstOfName_eq_self_iff]
  · have hnil : own = [] := by
      rw [hnone] at hown
      exact (Except.ok.inj hown).symm
    have hall : unknown [] (registered shared) = registered shared :=
      List.filter_eq_self.mpr fun p _ => by simp
    have hmoved : ofOperation c path method { o with parameters := inherited } [] = .ok
        { path, method, operationId := o.operationId
          description := o.summary.or o.description
          parameters :=
            registered shared ++ firstOfName (unknown (registered shared) (registered []))
          body, response } :=
      ofOperation_of_follow (o := { o with parameters := inherited }) hbody hresponse hshared rfl
    have hown : registered [] ++ firstOfName (unknown (registered []) (registered shared)) =
        firstOfName (registered shared) := congrArg firstOfName hall
    have hempty : registered shared ++ firstOfName (unknown (registered shared) (registered [])) =
        registered shared := List.append_nil _
    rw [hmoved, hnil, hown, hempty, Except.ok.injEq, Endpoint.mk.injEq, ← firstOfName_eq_self_iff]
    exact ⟨fun heq => heq.2.2.2.2.1.symm, fun heq => ⟨rfl, rfl, rfl, rfl, heq.symm, rfl, rfl⟩⟩

def idField : Parameter :=
  { name := "id", location := .query, required := false, description := none
    format := .schema (.item (.mk {} .string)) }

def idHeader : Parameter :=
  { name := "id", location := .header, required := false, description := none
    format := .schema (.item (.mk {} .integer)) }

/-- A path that shares two parameters of one name: the endpoint has the first one only, although the
operation overrides neither, and would have both if they were its own. -/
theorem parameters_sharedIds :
    ∃ e, ofOperation {} "/pets" .get {} [.item idField, .item idHeader] = .ok e ∧
      e.parameters.map (fun p => (p.name, p.location)) = [("id", .query)] ∧
      e.parameters ≠ registered [] ++ unknown (registered []) (registered [idField, idHeader]) ∧
      ofOperation {} "/pets" .get { parameters := [.item idField, .item idHeader] } [] ≠
        .ok e := by
  obtain ⟨e, he, hparameters, hall, hmoved⟩ :=
    @parameters_ofOperation {} "/pets" .get {} [.item idField, .item idHeader] none none []
      [idField, idHeader] rfl rfl rfl rfl
  refine ⟨e, he, ?_, mt hall.mp (by decide), mt (hmoved rfl).mp (by decide)⟩
  rw [hparameters]
  decide

end ApiGraph.OpenApi.Endpoint
