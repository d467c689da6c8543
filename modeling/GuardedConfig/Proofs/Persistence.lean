import GuardedConfig.Artifact
import GuardedConfig.Proofs.Concatenation
import GuardedConfig.Proofs.JsonText

/-!
# `Proofs.Persistence` — a stored artifact is the artifact

An artifact is stored as text and stands for its source from then on, without being compiled again. Nothing of it is
lost on the way: the text is read back as the same artifact, whatever texts its declarations and its metadata hold.
The metadata are a map, which is kept in the order of its tags; compiling and reading make no others.

## Contents

* `Recovers` — a kind of value that is read back from its JSON
* `recovers_text`, `recovers_items`, `recovers_struct`, … — kind by kind
* `members_eq_self` — a map is read back from its members
* `compile_ordered`, `ofText?_ordered` — the metadata of artifacts are maps
* `ofText?_text`
-/

namespace GuardedConfig

namespace Json

variable {α : Type} {ms : List (String × α)}

theorem members_eq_override (pairs : List (String × α)) : members pairs = override [] pairs := rfl

/-- Members in the order of their keys are kept as they are. -/
theorem members_eq_self (h : ms.Pairwise (·.1 < ·.1)) : members ms = ms := by
  rw [members_eq_override]
  exact eq_of_mem_iff (pairwise_override .nil) h fun k v => by rw [mem_override .nil h]; simp

theorem pairwise_members (pairs : List (String × α)) : (members pairs).Pairwise (·.1 < ·.1) :=
  members_eq_override pairs ▸ pairwise_override .nil

end Json

namespace Artifact

open Json

/-! ## Kinds of values -/

/-- Values that are read back from the document that their JSON is. -/
def Recovers {α : Type} (json : α → Json) (read : Document → Option α) : Prop :=
  ∀ a, ∃ d, (json a).document? = some d ∧ read d = some a

variable {α : Type} {json : α → Json} {read : Document → Option α}

theorem recovers_text : Recovers .str textOf? := fun s => ⟨.string (some s), rfl, rfl⟩

theorem recovers_items (h : Recovers json read) : Recovers (fun as => .arr (as.map json)) (itemsOf? read) := by
  intro as
  suffices ∃ ds, itemDocuments? (as.map json) = some ds ∧ ds.mapM read = some as by
    obtain ⟨ds, hds, hread⟩ := this
    exact ⟨.array ds, Option.map_eq_some_iff.2 ⟨ds, hds, rfl⟩, hread⟩
  induction as with
  | nil => exact ⟨[], rfl, rfl⟩
  | cons a as ih =>
    obtain ⟨d, hd, ha⟩ := h a
    obtain ⟨ds, hds, hread⟩ := ih
    exact ⟨d :: ds, itemDocuments?_cons_eq_some.2 ⟨d, ds, hd, hds, rfl⟩, by simp [ha, hread]⟩

theorem recovers_struct : Recovers structJson structOf? := by
  rintro ⟨name, body, _ | argument⟩
  · exact ⟨_, rfl, rfl⟩
  · exact ⟨_, rfl, rfl⟩

theorem recovers_config : Recovers configJson configOf? := fun _ => ⟨_, rfl, rfl⟩

theorem recovers_trigger : Recovers triggerJson triggerOf? := fun _ => ⟨_, rfl, rfl⟩

theorem recovers_slice : Recovers sliceJson sliceOf? := fun _ => ⟨_, rfl, rfl⟩

theorem recovers_declarations : Recovers declarationsJson declarationsOf? := by
  rintro ⟨structs, configs, triggers, slices⟩
  obtain ⟨ds, hds, hstructs⟩ := recovers_items recovers_struct structs
  obtain ⟨dc, hdc, hconfigs⟩ := recovers_items recovers_config configs
  obtain ⟨dt, hdt, htriggers⟩ := recovers_items recovers_trigger triggers
  obtain ⟨dl, hdl, hslices⟩ := recovers_items recovers_slice slices
  beta_reduce at hds hdc hdt hdl
  refine ⟨.object [(some "structs", ds), (some "configs", dc), (some "triggers", dt), (some "slices", dl)], ?_, ?_⟩
  · show (memberDocuments? [("structs", .arr (structs.map structJson)), ("configs", .arr (configs.map configJson)),
      ("triggers", .arr (triggers.map triggerJson)), ("slices", .arr (slices.map sliceJson))]).map Document.object = _
    simp only [memberDocuments?, hds, hdc, hdt, hdl, Option.map_some]
  · show (do
      some (Declarations.mk (← itemsOf? structOf? ds) (← itemsOf? configOf? dc) (← itemsOf? triggerOf? dt)
        (← itemsOf? sliceOf? dl))) = _
    rw [hstructs, hconfigs, htriggers, hslices]
    rfl

theorem mapM_map_eq_some {β : Type} {f : β → Option α} {g : α → β} (h : ∀ a, f (g a) = some a) (as : List α) :
    (as.map g).mapM f = some as := by
  induction as with
  | nil => rfl
  | cons a as ih => simp [h, ih]

/-- The members of the metadata, as a document. -/
theorem document?_metadata (metadata : List (String × String)) :
    memberDocuments? (metadata.map fun (tag, text) => (tag, .str text)) =
      some (metadata.map fun (tag, text) => (some tag, .string (some text))) := by
  induction metadata with
  | nil => rfl
  | cons m metadata ih => exact memberDocuments?_cons_eq_some.2 ⟨_, _, rfl, ih, rfl⟩

/-- Metadata are read back as a map: of one tag the last text. -/
theorem metadataOf?_document (metadata : List (String × String)) :
    metadataOf? (.object (metadata.map fun (tag, text) => (some tag, .string (some text)))) = some (members metadata) := by
  have hpairs := mapM_map_eq_some (f := fun (m : Option String × Document) => do some (← m.1, ← textOf? m.2))
    (g := fun m : String × String => (some m.1, .string (some m.2))) (fun _ => rfl) metadata
  exact congrArg (Option.bind · fun pairs => some (members pairs)) hpairs

/-- The document that the JSON of an artifact is has the parts of the artifact, and its metadata as a map. -/
theorem exists_document (a : Artifact) : ∃ d, a.toJson.document? = some d ∧
    ∀ text, Document.ofText? text = some d → ofText? text = some { a with metadata := members a.metadata } := by
  obtain ⟨fingerprint, metadata, declarations⟩ := a
  obtain ⟨d, hd, hdeclarations⟩ := recovers_declarations declarations
  refine ⟨.object [(some "fingerprint", .string (some fingerprint)),
    (some "metadata", .object (metadata.map fun (tag, text) => (some tag, .string (some text)))),
    (some "declarations", d)], ?_, fun text htext => ?_⟩
  · have hmetadata : (Json.obj (metadata.map fun (tag, text) => (tag, .str text))).document? = some (.object _) :=
      congrArg (Option.map Document.object) (document?_metadata metadata)
    have hfingerprint : (Json.str fingerprint).document? = some (.string (some fingerprint)) := rfl
    show (memberDocuments? [("fingerprint", .str fingerprint),
      ("metadata", .obj (metadata.map fun (tag, text) => (tag, .str text))),
      ("declarations", declarationsJson declarations)]).map Document.object = _
    simp only [memberDocuments?, hfingerprint, hmetadata, hd, Option.map_some]
  · unfold ofText?
    rw [htext]
    show (do some (Artifact.mk fingerprint (← metadataOf? _) (← declarationsOf? d))) = _
    rw [metadataOf?_document, hdeclarations]
    rfl

/-! ## Metadata -/

/-- Compiling a source orders its metadata by their tags. -/
theorem compile_ordered {source : String} {tokens : List Token} {a : Artifact} (h : compile source tokens = .ok a) :
    a.metadata.Pairwise (·.1 < ·.1) := by
  unfold compile at h
  split at h
  · rename_i hread
    cases h
    exact Statement.ordered_of_read hread
  · cases h

/-- Reading a text orders the metadata by their tags. -/
theorem ofText?_ordered {text : String} {a : Artifact} (h : ofText? text = some a) :
    a.metadata.Pairwise (·.1 < ·.1) := by
  have hordered : ∀ {d metadata}, metadataOf? d = some metadata → metadata.Pairwise (·.1 < ·.1) := by
    intro d metadata hread
    unfold metadataOf? at hread
    split at hread
    · obtain ⟨pairs, -, hpairs⟩ := Option.bind_eq_some_iff.1 hread
      cases hpairs
      exact pairwise_members pairs
    · cases hread
  unfold ofText? at h
  obtain ⟨d, -, h⟩ := Option.bind_eq_some_iff.1 h
  obtain ⟨parts, -, h⟩ := Option.bind_eq_some_iff.1 h
  split at h
  · obtain ⟨fingerprint, -, h⟩ := Option.bind_eq_some_iff.1 h
    obtain ⟨metadata, hmetadata, h⟩ := Option.bind_eq_some_iff.1 h
    obtain ⟨declarations, -, h⟩ := Option.bind_eq_some_iff.1 h
    cases h
    exact hordered hmetadata
  · cases h

/-! ## Artifacts -/

/-- **A stored artifact is the artifact.** The text in which an artifact is stored is read back as this artifact, and
so is its text without blanks, whatever its fingerprint, its metadata and its declarations say. -/
theorem ofText?_text {a : Artifact} (h : a.metadata.Pairwise (·.1 < ·.1)) :
    ofText? a.text = some a ∧ ofText? a.toJson.compact = some a := by
  obtain ⟨d, hd, hread⟩ := exists_document a
  rw [members_eq_self h] at hread
  exact ⟨hread _ (ofText?_indented hd), hread _ (ofText?_compact hd)⟩

/-- Tags, texts over several lines, quotes, backslashes and control characters, and structs with and without an
argument. -/
def annotated : Artifact where
  fingerprint := "\u0001\"\\"
  metadata := [("AUTHOR", "A \"B\" C"), ("VERSION", "\t1.0\n")]
  declarations :=
    { structs := [⟨"T", "v TEXT DEFAULT 'ä\u007f'", some "x:TEXT=\\"⟩, ⟨"S", "a INTEGER,\n b TEXT", none⟩]
      triggers := [⟨"t", "C", "# ends here\r\nreturn true;"⟩] }

theorem ofText?_text_annotated : annotated.metadata.Pairwise (·.1 < ·.1) ∧ ofText? annotated.text = some annotated ∧
    ofText? annotated.toJson.compact = some annotated :=
  have hordered : annotated.metadata.Pairwise (·.1 < ·.1) := by decide
  ⟨hordered, ofText?_text hordered⟩

end Artifact

end GuardedConfig
