import ApiGraph.Proofs.Generation.Making
import ApiGraph.Proofs.Lists

/-!
# The operations of a document

An operation stands on a path, under a method, next to the parameters that it shares with the other
operations there: `PlacedOperation`.  The endpoints of a document are those of its operations, one
for each, in the same order (`forall₂_endpoints`).
-/

namespace ApiGraph.OpenApi

open ApiGraph.Generation (bind_eq_ok)

/-- An operation with everything that its endpoint is made from. -/
structure PlacedOperation where
  path : String
  method : Method
  operation : Operation
  /-- The parameters of the path. -/
  shared : List (RefOr Parameter)

/-- The endpoint of the operation. -/
def PlacedOperation.endpoint (c : Components) (x : PlacedOperation) : Except Problem Endpoint :=
  Endpoint.ofOperation c x.path x.method x.operation x.shared

/-- The operations on a path. -/
def PathItem.placed (path : String) (item : PathItem) : List PlacedOperation :=
  item.operations.map fun (method, o) => ⟨path, method, o, item.parameters⟩

/-- The operations on some paths, path by path; there are none on a path that is a reference. -/
def operationsOn : List (String × RefOr PathItem) → List PlacedOperation
  | [] => []
  | (_, .reference _) :: rest => operationsOn rest
  | (path, .item item) :: rest => item.placed path ++ operationsOn rest

/-- The operations of a document. -/
def Document.operations (d : Document) : List PlacedOperation :=
  operationsOn d.paths

theorem forall₂_of_mapM {ε α β : Type} {f : α → Except ε β} {l : List α} {l' : List β}
    (h : l.mapM f = .ok l') : List.Forall₂ (fun a b => f a = .ok b) l l' := by
  induction l generalizing l' with
  | nil =>
    obtain rfl := Except.ok.inj h
    exact .nil
  | cons a l ih =>
    rw [List.mapM_cons] at h
    obtain ⟨b, hb, h⟩ := bind_eq_ok.mp h
    obtain ⟨bs, hbs, h⟩ := bind_eq_ok.mp h
    obtain rfl := Except.ok.inj h
    exact .cons hb (ih hbs)

variable {c : Components} {d : Document} {endpoints : List Endpoint}

theorem forall₂_pathItem {path : String} {item : PathItem}
    (h : item.endpoints c path = .ok endpoints) :
    List.Forall₂ (fun x e => x.endpoint c = .ok e) (item.placed path) endpoints := by
  refine List.forall₂_map_left_iff.mpr ((forall₂_of_mapM h).imp ?_)
  rintro ⟨method, o⟩ e he
  exact he

theorem forall₂_endpointsOn {paths : List (String × RefOr PathItem)}
    (h : endpointsOn c paths = .ok endpoints) :
    List.Forall₂ (fun x e => x.endpoint c = .ok e) (operationsOn paths) endpoints := by
  induction paths generalizing endpoints with
  | nil =>
    obtain rfl := Except.ok.inj h
    exact .nil
  | cons head rest ih =>
    obtain ⟨path, item⟩ := head
    cases item with
    | reference target => exact nomatch h
    | item item =>
      obtain ⟨here, hhere, h⟩ := bind_eq_ok.mp h
      obtain ⟨behind, hbehind, h⟩ := bind_eq_ok.mp h
      obtain rfl := Except.ok.inj h
      exact List.rel_append (forall₂_pathItem hhere) (ih hbehind)

/-- Operations and endpoints stand side by side. -/
theorem forall₂_endpoints (h : d.endpoints = .ok endpoints) :
    List.Forall₂ (fun x e => x.endpoint d.components = .ok e) d.operations endpoints :=
  forall₂_endpointsOn h

/-- Every operation has its endpoint. -/
theorem exists_endpoint (h : d.endpoints = .ok endpoints) {x : PlacedOperation}
    (hx : x ∈ d.operations) : ∃ e ∈ endpoints, x.endpoint d.components = .ok e :=
  exists_of_forall₂ (forall₂_endpoints h) hx

/-- Every endpoint is that of an operation. -/
theorem exists_operation (h : d.endpoints = .ok endpoints) {e : Endpoint} (he : e ∈ endpoints) :
    ∃ x ∈ d.operations, x.endpoint d.components = .ok e :=
  exists_of_forall₂ (forall₂_endpoints h).flip he

end ApiGraph.OpenApi
