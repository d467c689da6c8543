import GuardedConfig.Proofs.Commands
import GuardedConfig.Proofs.Steps

/-!
# `Proofs.Members` — what the insertions of a write do

A map of members makes a row of a table for items: each column has the value that the map gives it, if it gives it
one. The new row has the next identifier of its table and waits for its owner. The link of a list then adds a row
to the junction, and the new row has got an owner.

## Contents

* `usedId_inserted`, `usedId_inserted_of_ne`, `sequence_removedAll` — identifiers that have been used
* `memberValue`, `Table.rowValues`, `insertRow_eq_ok`
* `Content.addItem`, `perform_insertItem`
* `Content.addLink`, `perform_linkRow`
-/

namespace GuardedConfig

open Schema Sql
open Decimal (maxInt)

/-! ## Identifiers that have been used -/

namespace Sql

variable {L : List TableInfo} {c : Content} {t u p : TableInfo} {row : Row}

/-- The rows of a table once one with a higher identifier has been added. -/
theorem rowsOf_inserted (h : Layout L) (hc : c.Sound L) (ht : t ∈ L) {id : Int} (hid : c.usedId t.name < id)
    (values : List Value) : (c.inserted t id values).rowsOf t.name = c.rowsOf t.name ++ [convert t id values] := by
  unfold Content.inserted
  rw [Content.rowsOf_onRows_self (by rw [Content.infos_note]; exact hc.apart h)
    (by rw [Content.infos_note, hc.infos]; exact ht), Content.rowsOf_note]
  exact insertRow_of_lt fun other ho => Int.lt_of_le_of_lt (le_usedId hc ht ho) hid

theorem rowsOf_inserted_of_ne {name : String} (h : sameName t.name name = false) (id : Int) (values : List Value) :
    (c.inserted t id values).rowsOf name = c.rowsOf name := by
  unfold Content.inserted
  rw [Content.rowsOf_onRows_of_ne h, Content.rowsOf_note]

/-- The identifier of a new row has been used. -/
theorem usedId_inserted (h : Layout L) (hc : c.Sound L) (ht : t ∈ L) {id : Int} (hid : c.usedId t.name < id)
    (values : List Value) : (c.inserted t id values).usedId t.name = id := by
  have hsequence : c.sequence t.name ≤ c.usedId t.name := Int.le_max_right ..
  unfold Content.usedId at hid ⊢
  rw [rowsOf_inserted h hc ht hid, List.getLast?_concat, Option.map_some, Option.getD_some]
  unfold Content.inserted
  rw [Content.sequence_onRows, Content.sequence_note_self]
  show max id (max (c.sequence t.name) id) = id
  unfold Content.usedId at hsequence
  omega

theorem usedId_inserted_of_ne {name : String} (h : sameName t.name name = false) (id : Int) (values : List Value) :
    (c.inserted t id values).usedId name = c.usedId name := by
  unfold Content.usedId
  rw [rowsOf_inserted_of_ne h]
  unfold Content.inserted
  rw [Content.sequence_onRows, Content.sequence_note_of_ne c h]

/-- A deletion of rows does not make their identifiers new. -/
theorem sequence_removedAll (c : Content) (name other : String) (ids : List Int) :
    (c.removedAll L name ids).sequence other = c.sequence other := by
  have hlinks : ∀ (links : List (TableInfo × ForeignKeyInfo)) (c : Content) (id : Int),
      (links.foldl (fun c link => c.onRows link.1.name (link.1.unlink link.2 id)) c).sequence other =
        c.sequence other := by
    intro links
    induction links with
    | nil => exact fun _ _ => rfl
    | cons link links ih => exact fun c id => ih _ id
  unfold Content.removedAll
  induction ids generalizing c with
  | nil => rfl
  | cons id ids ih => exact (ih _).trans (hlinks ..)

end Sql

/-! ## The row of a map of members -/

/-- The stored value of a scalar. -/
def Plan.storedOf (value : Json) : Value := (toStored value).toOption.getD .null

/-- The value that a map of members gives a column. -/
def Plan.memberValue (members : List (String × Json)) (name : String) : Value :=
  ((members.find? (·.1 == name)).map fun m => storedOf m.2).getD .null

/-- The values of the row that a map of members makes; the first one is for the key. -/
def Schema.Table.rowValues (t : Table) (members : List (String × Json)) : List Value :=
  .null :: t.columns.map fun c => Plan.memberValue members c.name

namespace Plan

/-- The place of a column of a table. -/
def placeOf (t : Table) (name : String) : Nat := t.columns.findIdx (·.name == name) + 1

theorem evalAll_parameters (content : Content) (params : List Value) (n : Nat) :
    evalAll { content, params } ((List.range n).map fun i => .parameter (i + 1)) =
      .ok ((List.range n).map fun i => params.getD i .null) := by
  suffices h : ∀ l : List Nat, evalAll { content, params } (l.map fun i => .parameter (i + 1)) =
      .ok (l.map fun i => params.getD i .null) from h _
  intro l
  induction l with
  | nil => rw [List.map_nil, evalAll]; rfl
  | cons i l ih =>
    rw [List.map_cons, evalAll, ih, eval]
    rfl

/-- A name of a column is that of the column at its place. -/
theorem placeOf_spec {t : Table} {name : String} (h : t.hasColumn name = true) :
    ∃ c, t.columns[t.columns.findIdx (·.name == name)]? = some c ∧ c.name = name := by
  have hlt := List.findIdx_lt_length.2 (List.any_eq_true.1 h)
  refine ⟨_, List.getElem?_eq_getElem hlt, ?_⟩
  simpa using List.findIdx_getElem (w := hlt)

theorem columnIndex?_placeOf {t : Table} (hd : t.HasDistinctColumns) {name : String} (h : t.hasColumn name = true) :
    t.info.columnIndex? name = some (placeOf t name) := by
  obtain ⟨c, hc, hname⟩ := placeOf_spec h
  exact columnIndex?_info hd hc hname

/-- Only the name of a column leads to its place. -/
theorem placeOf_eq_iff {t : Table} (hd : t.HasDistinctColumns) {name : String} (h : t.hasColumn name = true) {i : Nat}
    {c : Column} (hc : t.columns[i]? = some c) : placeOf t name = i + 1 ↔ name = c.name := by
  constructor
  · intro hplace
    obtain ⟨c', hc', hname⟩ := placeOf_spec h
    have hi : t.columns.findIdx (·.name == name) = i := Nat.succ.inj hplace
    rw [hi, hc, Option.some.injEq] at hc'
    rw [hc', hname]
  · rintro rfl
    have hplace := (columnIndex?_placeOf hd h).symm.trans (columnIndex?_info hd hc rfl)
    exact Option.some.inj hplace

/-- The values of a map of members that can be inserted. -/
theorem mapM_members_eq_ok {t : Table} {members : List (String × Json)} {values : List Value}
    (h : members.mapM (fun (name, value) =>
      if t.hasColumn name then toStored value else .error (.noField t.name name)) = .ok values) :
    (∀ m ∈ members, t.hasColumn m.1 = true) ∧ values = members.map fun m => storedOf m.2 := by
  rw [mapM_eq_ok_iff] at h
  induction h with
  | nil => exact ⟨fun _ hm => (nomatch hm), rfl⟩
  | @cons m v members values hm _ ih =>
    obtain ⟨hcolumns, rfl⟩ := ih
    dsimp only at hm
    split at hm
    · rename_i hcolumn
      refine ⟨fun m' hm' => ?_, ?_⟩
      · rcases List.mem_cons.1 hm' with rfl | hm'
        · exact hcolumn
        · exact hcolumns m' hm'
      · unfold storedOf
        rw [List.map_cons, hm]
        rfl
    · cases hm

/-- What a map of members gives the columns, by their places. -/
theorem mapIdx_givenAt {t : Table} (hd : t.HasDistinctColumns) {members : List (String × Json)}
    (hcolumns : ∀ m ∈ members, t.hasColumn m.1 = true) {places : List Nat}
    (hplaces : places = members.map fun m => placeOf t m.1) {given : List Value}
    (hgiven : given = members.map fun m => storedOf m.2) :
    givenAt places given 0 = .null ∧ (t.info.columns.mapIdx fun i _ => givenAt places given i) = t.rowValues members := by
  have hfind : ∀ i, givenAt places given i =
      ((members.find? fun m => placeOf t m.1 == i).map fun m => storedOf m.2).getD .null := by
    intro i
    unfold givenAt
    rw [hplaces, hgiven, List.zip_map', List.find?_map, Option.map_map]
    rfl
  have hkey : givenAt places given 0 = .null := by
    have hnone : members.find? (fun m => placeOf t m.1 == 0) = none :=
      List.find?_eq_none.2 fun m _ hm => Nat.succ_ne_zero _ (beq_iff_eq.1 hm)
    rw [hfind, hnone]
    rfl
  refine ⟨hkey, List.mapIdx_eq_iff.2 fun i => ?_⟩
  cases i with
  | zero => exact congrArg some hkey.symm
  | succ i =>
    show (t.columns.map fun c => memberValue members c.name)[i]? = ((t.columns.map Column.info)[i]?).map fun _ => _
    rw [List.getElem?_map, List.getElem?_map]
    cases hc : t.columns[i]? with
    | none => rfl
    | some c =>
      rw [Option.map_some, Option.map_some, Option.map_some, hfind]
      have hsame : members.filter (·.1 == c.name) = members.filter fun m => placeOf t m.1 == i + 1 := by
        refine List.filter_congr fun m hm => ?_
        rw [Bool.eq_iff_iff, beq_iff_eq, beq_iff_eq]
        exact (placeOf_eq_iff hd (hcolumns m hm) hc).symm
      unfold memberValue
      rw [← List.head?_filter, ← List.head?_filter, hsame]

/-- The insertion of a map of members adds its row to the table, whatever the content. -/
theorem insertRow_eq_ok {t : Table} {members : List (String × Json)} {command : Command} (hd : t.HasDistinctColumns)
    (hok : insertRow t members = .ok command) :
    ∃ (i : Insert) (params : List Value), command = { statement := .insert i, params := params.map .value } ∧
      ∀ {L : List TableInfo} {content : Content}, Layout L → content.Sound L → t.info ∈ L →
        i.Adds content params t.info .null (t.rowValues members) := by
  unfold insertRow at hok
  split at hok
  · rename_i hempty
    cases hok
    obtain rfl := List.isEmpty_iff.1 hempty
    refine ⟨{ table := t.name }, [], rfl, fun hL hc ht => ⟨none, ?_⟩⟩
    obtain ⟨-, hvalues⟩ := mapIdx_givenAt hd (fun m (hm : m ∈ ([] : List (String × Json))) => (nomatch hm)) rfl rfl
    rw [← hvalues]
    exact Insert.prepare_default_eq hL hc ht []
  · obtain ⟨values, hvalues, hok⟩ := except_bind_eq_ok.1 hok
    cases hok
    obtain ⟨hcolumns, hvalues⟩ := mapM_members_eq_ok hvalues
    refine ⟨_, values, rfl, fun {L content} hL hc ht => ⟨none, ?_⟩⟩
    obtain ⟨hkey, hrow⟩ := mapIdx_givenAt hd hcolumns rfl hvalues
    have hplaces : columnPlaces t.info t.name (members.map (·.1)) =
        .ok ((members.map fun m => placeOf t m.1).map some) := by
      unfold columnPlaces
      rw [mapM_eq_ok (g := fun name => some (placeOf t name)) fun name hname => ?_, List.map_map, List.map_map]
      · rfl
      · obtain ⟨m, hm, rfl⟩ := List.mem_map.1 hname
        rw [columnIndex?_placeOf hd (hcolumns m hm)]
    have hgiven : evalAll { content, params := values } ((List.range values.length).map fun i => .parameter (i + 1)) =
        .ok values := by
      rw [evalAll_parameters]
      refine congrArg Except.ok (List.ext_getElem (by simp) fun i hi hi' => ?_)
      simp [List.getD_eq_getElem?_getD, hi']
    rw [← hrow, ← hkey]
    exact Insert.prepare_eq hL hc ht (.inl rfl) hplaces hgiven (by rw [hvalues, List.length_map, List.length_map])

end Plan

/-- The content with the row that a map of members makes. -/
def Sql.Content.addItem (content : Content) (item : Table) (members : List (String × Json)) : Content :=
  content.inserted item.info (content.usedId item.name + 1) (item.rowValues members)

/-- The values of the row of a junction that links an item to the row of its config; the first one is for the key. -/
def linkValues (id : Int) : List Value := [.null, .integer id, .integer configRow]

/-- The content where the config owns an item as a member of a list. -/
def Sql.Content.addLink (content : Content) (item owner : String) (id : Int) : Content :=
  content.inserted (Table.junction item owner).info (content.usedId (junctionName item owner) + 1)
    (linkValues id)

namespace Schema.Regular

open Plan (insertRow linkRow)

variable {c : Catalog} {s : CompiledSchema} {t p : Table} {session : Session} {members : List (String × Json)} {n : Int}

/-- The rows of a table for items once a map of members has been added. -/
theorem rowsOf_addItem (h : Regular c s) {content : Content} (hc : content.Sound s.infos) (hp : p ∈ s.tables)
    (members : List (String × Json)) : (content.addItem p members).rowsOf p.name =
      content.rowsOf p.name ++ [convert p.info (content.usedId p.name + 1) (p.rowValues members)] :=
  rowsOf_inserted h.layout hc (mem_infos hp) (Int.lt_succ _) _

/-- The rows of a junction once a link has been added. -/
theorem rowsOf_addLink (h : Regular c s) {content : Content} (hc : content.Sound s.infos)
    (hj : Table.junction p.name t.name ∈ s.tables) (id : Int) :
    (content.addLink p.name t.name id).rowsOf (junctionName p.name t.name) =
      content.rowsOf (junctionName p.name t.name) ++ [convert (Table.junction p.name t.name).info
        (content.usedId (junctionName p.name t.name) + 1) (linkValues id)] :=
  rowsOf_inserted h.layout hc (mem_infos hj) (Int.lt_succ _) _

/-- A table for items can be given any values. -/
theorem admissible_rowValues (h : Regular c s) (hp : p ∈ s.tables) (hitem : c.IsItem p.name) (content : Content)
    (members : List (String × Json)) : Admissible content p.info (p.rowValues members) where
  length := by
    show (_ :: p.columns.map _).length = (_ :: p.columns.map _).length
    rw [List.length_cons, List.length_cons, List.length_map, List.length_map]
  notNull i column hi hcolumn _ := by
    obtain ⟨j, rfl⟩ := Nat.exists_eq_succ_of_ne_zero hi
    exact h.notNull hp (.inr hitem) hcolumn
  links k hk := by
    rw [(h.leaf hp hitem).1] at hk
    cases hk

/-- An item that is added waits for its owner. -/
theorem owned_addItem (h : Regular c s) (hp : p ∈ s.tables) (hitem : c.IsItem p.name) {content : Content}
    (ho : s.Owned none content) (members : List (String × Json)) :
    s.Owned (some (p.name, content.usedId p.name + 1)) (content.addItem p members) := by
  have hpm : p.info ∈ s.infos := mem_infos hp
  obtain ⟨hleaf, hconfig⟩ := h.leaf hp hitem
  refine (ho.note p.name _).insert_item h.ownership hpm hconfig hleaf (fun other hother => ?_)
    ((h.admissible_rowValues hp hitem content members).fits h.layout hpm _)
  rw [Content.rowsOf_note] at hother
  have hle := le_usedId ho.sound hpm hother
  have hused : other.id ≤ content.usedId p.name := hle
  show other.id ≠ content.usedId p.name + 1
  omega

/-- The insertion of an item, which waits for its owner then. -/
theorem perform_insertItem (h : Regular c s) (hp : p ∈ s.tables) (hitem : c.IsItem p.name)
    (ho : s.Owned none session.content) {command : Plan.Command} (hcommand : insertRow p members = .ok command) :
    ∃ params : List Value, command.params = params.map .value ∧
      (session.content.usedId p.name = maxInt → (session.perform command.statement params).1 = .error .full) ∧
      (session.content.usedId p.name ≠ maxInt →
        session.perform command.statement params = (.ok default, { session with
            content := session.content.addItem p members
            lastRowId := session.content.usedId p.name + 1
            changes := 1 }) ∧
          s.Owned (some (p.name, session.content.usedId p.name + 1)) (session.content.addItem p members)) := by
  have hpm : p.info ∈ s.infos := mem_infos hp
  obtain ⟨i, params, rfl, hadds⟩ := Plan.insertRow_eq_ok (h.distinct p hp) hcommand
  have hadds := hadds h.layout ho.sound hpm
  have hadmissible := h.admissible_rowValues hp hitem session.content members
  refine ⟨params, rfl, perform_insert_full h.layout ho.sound hpm hadds, fun hroom => ⟨?_, ?_⟩⟩
  · exact perform_insert h.layout ho.sound hpm hadds hadmissible (.inl ⟨rfl, hroom, rfl⟩)
  · exact h.owned_addItem hp hitem ho members

/-- What the link of a list adds to its junction. -/
theorem linkRow_adds (h : Regular c s) (hj : Table.junction p.name t.name ∈ s.tables) {content : Content}
    {new : Option (String × Int)} (ho : s.Owned new content) (n : Int) :
    ∃ i : Insert, (linkRow t.name p).statement = .insert i ∧
      i.Adds content [.integer n] (Table.junction p.name t.name).info .null
        (linkValues n) := by
  obtain ⟨-, -, hone, htwo⟩ := h.junction_columns hj
  have hplaces : columnPlaces (Table.junction p.name t.name).info (junctionName p.name t.name)
      [p.key, primaryKey t.name] = .ok ([1, 2].map some) := by
    unfold columnPlaces
    rw [List.mapM_cons, hone, List.mapM_cons, htwo]
    rfl
  have hgiven : evalAll { content, params := [.integer n] } [.parameter 1, .int configRow] =
      .ok [.integer n, .integer configRow] := by
    rw [evalAll, eval, evalAll, eval_int, evalAll]
    rfl
  exact ⟨_, rfl, none, Insert.prepare_eq h.layout ho.sound (mem_infos hj) (.inl rfl) hplaces hgiven rfl⟩

/-- The foreign keys of a junction hold the identifiers that a link is given. -/
theorem junction_links (h : Regular c s) (hj : Table.junction p.name t.name ∈ s.tables) (n : Int) :
    ∀ k ∈ (Table.junction p.name t.name).info.foreignKeys,
      k.parent = p.name ∧ (linkValues n).getD k.column .null = .integer n ∨
        k.parent = t.name ∧ (linkValues n).getD k.column .null = .integer configRow := by
  obtain ⟨hone, htwo, -⟩ := h.junction_columns hj
  intro k hk
  have hk : k ∈ [(itemKey p.name).info (Table.junction p.name t.name).info.columns,
      (ForeignKey.mk (primaryKey t.name) t.name (some .cascade)).info (Table.junction p.name t.name).info.columns] := hk
  rcases List.mem_pair.1 hk with rfl | rfl
  · exact .inl ⟨rfl, by rw [hone]; rfl⟩
  · exact .inr ⟨rfl, by rw [htwo]; rfl⟩

/-- A link can be given the identifiers of an item and of its config. -/
theorem admissible_link (h : Regular c s) (ht : t ∈ s.tables) (hn : t.name ∈ s.configs)
    (hj : Table.junction p.name t.name ∈ s.tables) {content : Content} {new : Option (String × Int)}
    (ho : s.Owned new content) (hid : n ∈ content.idsOf p.name) :
    Admissible content (Table.junction p.name t.name).info (linkValues n) where
  length := rfl
  notNull i column hi _ hnull := by
    match i with
    | 0 => exact absurd rfl hi
    | 1 => cases hnull
    | 2 => cases hnull
    | i + 3 => cases hnull
  links k hk := by
    have hone : content.idsOf t.name = [configRow] := ho.single _ (mem_infos ht) hn
    rcases h.junction_links hj n k hk with ⟨hparent, hvalue⟩ | ⟨hparent, hvalue⟩
    · exact .inr ⟨n, hvalue, hparent ▸ hid⟩
    · exact .inr ⟨configRow, hvalue, by rw [hparent, hone]; exact List.mem_singleton_self _⟩

/-- A row that links an item to its config makes the config its owner. -/
theorem owned_insertLink (h : Regular c s) (hp : p ∈ s.tables) (hitem : c.IsItem p.name)
    (hj : Table.junction p.name t.name ∈ s.tables) {content : Content} (ho : s.Owned (some (p.name, n)) content)
    {row : Row} (hfit : row.Fits (Table.junction p.name t.name).info)
    (hnew : ∀ other ∈ content.rowsOf (junctionName p.name t.name), other.id ≠ row.id)
    (hvalue : ∀ k ∈ (Table.junction p.name t.name).info.foreignKeys,
      row.value k.column = (linkValues n).getD k.column .null) :
    s.Owned none (content.onRows (Table.junction p.name t.name).info.name (Stored.insertRow row)) := by
  have hlink : ((Table.junction p.name t.name).info,
      (itemKey p.name).info (Table.junction p.name t.name).info.columns) ∈ s.owners := h.link_junction hitem hj
  refine Content.Owned.insert_link h.ownership (mem_infos hj) (h.junction_notMem hj) hlink ho hnew hfit ?_
    fun k hk hparent => ?_
  · have hone := (h.junction_columns hj).1
    refine (hvalue _ (List.mem_cons_self ..)).trans ?_
    show (linkValues n).getD ((itemKey p.name).info (Table.junction p.name t.name).info.columns).column .null = _
    rw [hone]
    rfl
  · rw [hvalue k hk]
    rcases h.junction_links hj n k hk with ⟨hitem', -⟩ | ⟨-, hv⟩
    · exact absurd (hitem' ▸ hparent) (h.leaf hp hitem).2
    · exact hv

/-- An item that waits for its owner exists. -/
theorem mem_ids_of_waiting (h : Regular c s) (hp : p ∈ s.tables) (hitem : c.IsItem p.name) {content : Content}
    (ho : s.Owned (some (p.name, n)) content) : n ∈ content.idsOf p.name := by
  obtain ⟨hleaf, hconfig⟩ := h.leaf hp hitem
  refine (ho.conserved _ (mem_infos hp) hconfig hleaf).mem_iff.1 (List.mem_append.2 (.inl ?_))
  show n ∈ if p.name = p.name then [n] else []
  rw [if_pos rfl]
  exact List.mem_singleton_self n

/-- The links of a row of a junction hold what they have been given. -/
theorem value_linkRow (h : Regular c s) (hj : Table.junction p.name t.name ∈ s.tables) (id : Int) :
    ∀ k ∈ (Table.junction p.name t.name).info.foreignKeys,
      (convert (Table.junction p.name t.name).info id (linkValues n)).value k.column =
        (linkValues n).getD k.column .null := by
  have hjm : (Table.junction p.name t.name).info ∈ s.infos := mem_infos hj
  intro k hk
  obtain ⟨parent, -, hlink⟩ := h.layout.links _ hjm k hk
  refine value_convert_link (h.layout.plain _ hjm) hlink _ rfl (.inr ?_)
  rcases h.junction_links hj n k hk with ⟨-, hv⟩ | ⟨-, hv⟩
  · exact ⟨n, hv⟩
  · exact ⟨configRow, hv⟩

/-- A list owns the item that is linked to it. -/
theorem owned_addLink (h : Regular c s) (ht : t ∈ s.tables) (hn : t.name ∈ s.configs) (hp : p ∈ s.tables)
    (hitem : c.IsItem p.name) (hj : Table.junction p.name t.name ∈ s.tables) {content : Content}
    (ho : s.Owned (some (p.name, n)) content) : s.Owned none (content.addLink p.name t.name n) := by
  have hjm : (Table.junction p.name t.name).info ∈ s.infos := mem_infos hj
  have hadmissible := h.admissible_link ht hn hj ho (h.mem_ids_of_waiting hp hitem ho)
  have hnoted := ho.note (junctionName p.name t.name) (content.usedId (junctionName p.name t.name) + 1)
  refine h.owned_insertLink hp hitem hj hnoted (hadmissible.fits h.layout hjm _) (fun other hother => ?_)
    (h.value_linkRow hj _)
  rw [Content.rowsOf_note] at hother
  have hle := le_usedId ho.sound hjm hother
  have hused : other.id ≤ content.usedId (junctionName p.name t.name) := hle
  show other.id ≠ content.usedId (junctionName p.name t.name) + 1
  omega

/-- The link of a list to an item that waits for its owner. -/
theorem perform_linkRow (h : Regular c s) (ht : t ∈ s.tables) (hn : t.name ∈ s.configs) (hp : p ∈ s.tables)
    (hitem : c.IsItem p.name) (hj : Table.junction p.name t.name ∈ s.tables)
    (ho : s.Owned (some (p.name, n)) session.content) :
    (session.content.usedId (junctionName p.name t.name) = maxInt →
      (session.perform (linkRow t.name p).statement [.integer n]).1 = .error .full) ∧
    (session.content.usedId (junctionName p.name t.name) ≠ maxInt →
      session.perform (linkRow t.name p).statement [.integer n] = (.ok default, { session with
          content := session.content.addLink p.name t.name n
          lastRowId := session.content.usedId (junctionName p.name t.name) + 1
          changes := 1 }) ∧
        s.Owned none (session.content.addLink p.name t.name n)) := by
  have hjm : (Table.junction p.name t.name).info ∈ s.infos := mem_infos hj
  obtain ⟨i, hi, hadds⟩ := h.linkRow_adds hj ho n
  have hadmissible := h.admissible_link ht hn hj ho (h.mem_ids_of_waiting hp hitem ho)
  rw [hi]
  refine ⟨perform_insert_full h.layout ho.sound hjm hadds, fun hroom => ⟨?_, ?_⟩⟩
  · exact perform_insert h.layout ho.sound hjm hadds hadmissible (.inl ⟨rfl, hroom, rfl⟩)
  · exact h.owned_addLink ht hn hp hitem hj ho

end Schema.Regular

end GuardedConfig
