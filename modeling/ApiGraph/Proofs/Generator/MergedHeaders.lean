import ApiGraph.Generator.Session
import ApiGraph.Proofs.Dictionary
import ApiGraph.Proofs.Engine.Compilation

/-!
# Header fields that are merged

Header fields may be given several times.  A data source keeps each name once, where it was given
first and with the value that was given last.  Settings merge their header fields as well, before
they come to a data source, so theirs are merged twice.  This makes no difference: what has been
merged has distinct names, and is taken over as it is.

* `attributes_at`: the attributes of a data source; without header fields there is none for them.
* `generateFrom_eq`: settings stand for the header fields as they are written.
* `headers_merge_stably`: what merging is, that it can be done in two goes, and what is merged in
  data sources that are created by hand and in those that settings describe.
-/

namespace ApiGraph

open ApiGraph.Dictionary (Merges)

namespace Engine

variable (kind : SourceKind) (name url : String) (headers : List (String × String))

/-- The attribute for header fields is there if some are given. -/
theorem attributes_at :
    (DataSource.at kind name url headers).attributes =
      if headers = [] then [.url url] else [.url url, .headers (Dictionary.ofPairs headers)] := by
  rw [DataSource.at]
  dsimp only
  rw [Dictionary.ofPairs_isEmpty]
  cases headers <;> rfl

/-- Header fields may be merged before they come to a data source. -/
theorem at_ofPairs :
    DataSource.at kind name url (Dictionary.ofPairs headers) =
      DataSource.at kind name url headers := by
  unfold DataSource.at
  rw [Dictionary.ofPairs_ofPairs]

/-- A data source is found at the place at which it was created. -/
theorem source?_addSource (d : Draft) :
    (d.addSource kind name url headers).2.source? (d.addSource kind name url headers).1 =
      some (.at kind name url headers) :=
  List.getElem?_concat_length

/-- The data source of a configuration is the first one that is created. -/
theorem dataSources_configurationFor (document : GraphQL.Sdl.Document) :
    (configurationFor document name url headers).dataSources =
      (Draft.addSource {} .graphql name url headers).2.dataSources :=
  congrArg Prod.fst (frame_addResolvers ..)

/-- Beside the data source, nothing in a configuration comes from header fields. -/
theorem configurationFor_ofPairs (document : GraphQL.Sdl.Document) :
    configurationFor document name url (Dictionary.ofPairs headers) =
      configurationFor document name url headers := by
  simp only [configurationFor, Draft.addSource, at_ofPairs]

end Engine

namespace Generator

open ApiGraph.Engine

/-- Settings without header fields have nothing merged, which is what merging them gives. -/
theorem getD_mergedHeaders? (settings : Settings) :
    settings.mergedHeaders?.getD [] = Dictionary.ofPairs settings.headers := by
  rw [Settings.mergedHeaders?]
  split
  · rename_i hempty
    rw [List.isEmpty_iff.mp hempty]
    rfl
  · rfl

/-- Settings stand for their header fields as they are written. -/
theorem generateFrom_eq (s : Session) (settings : Settings) :
    s.generateFrom settings = s.generate settings.name settings.url settings.headers := by
  rw [Session.generateFrom, getD_mergedHeaders?, Session.generate, Session.generate]
  simp only [configurationFor_ofPairs]

/-- What is merged where header fields are given.  Each name is there once, in the order in which
the names come first, with the value that comes last; the attribute is left out if there is nothing
to merge.  Merging the first header fields before the others come changes nothing, and so it changes
nothing that settings merge theirs before a data source does. -/
theorem headers_merge_stably :
    (∀ headers merged : List (String × String),
      Merges headers merged ↔ merged = Dictionary.ofPairs headers) ∧
    (∀ (d : Draft) (kind : SourceKind) (name url : String) (headers : List (String × String)),
      (d.addSource kind name url headers).2.source? (d.addSource kind name url headers).1 =
        some
          { kind, name
            attributes := if headers = [] then [.url url]
              else [.url url, .headers (Dictionary.ofPairs headers)] }) ∧
    (∀ first rest : List (String × String),
      Dictionary.ofPairs (Dictionary.ofPairs first ++ rest) = Dictionary.ofPairs (first ++ rest)) ∧
    ∀ (s : Session) (settings : Settings),
      s.generateFrom settings = s.generate settings.name settings.url settings.headers ∧
      (s.generateFrom settings).1.map (·.dataSources) = s.printedSchema.1.map fun _ =>
        (Draft.addSource {} .graphql settings.name settings.url settings.headers).2.dataSources := by
  refine ⟨fun _ _ => Dictionary.merges_iff, fun d kind name url headers => ?_,
    Dictionary.ofPairs_ofPairs_append, fun s settings => ⟨generateFrom_eq s settings, ?_⟩⟩
  · rw [source?_addSource, ← attributes_at kind name]
    rfl
  · rw [generateFrom_eq]
    show (s.printedSchema.1.map _).map _ = _
    cases s.printedSchema.1 with
    | error f => rfl
    | ok printed => exact congrArg Except.ok (dataSources_configurationFor ..)

end Generator

end ApiGraph
