import GuardedConfig.Proofs.Statements
import Mathlib.Data.List.Pairwise
import Mathlib.Data.List.Perm.Basic

/-!
# `Proofs.Ownership` — rows that are owned by exactly one link

Some links of a layout own the rows that they lead to: those of the one row of a config, and those of junction
rows, which belong to that row in turn. Every row that can be owned is held by exactly one such link, except for one
that has just been inserted and waits for its owner. As a conservation law: what waits and what the links hold is a
permutation of the identifiers of the rows.

## Contents

* `Link`, `Content.held`, `Ownership`, `Content.Owned`
* `Owned.linked`, `Owned.row_of_config`
* `Owned.insert_item`, `Owned.insert_link` — a row begins to wait, and finds its owner
* `Owned.assign_link`, `Owned.assign_other`
* `Owned.removed` — a row is deleted, and its owner released
* `rowsOf_removedAll_self`, `mem_of_mem_removedAll`, `held_removedAll`, `values_removedAll` — what is left where several rows are deleted
-/

namespace GuardedConfig.Sql

open Content (rowsOf_onRows_self rowsOf_onRows_of_ne)

/-! ## Definitions -/

/-- A foreign key with its table. -/
abbrev Link : Type := TableInfo × ForeignKeyInfo

/-- The identifier that a value is. -/
def Value.id? : Value → Option Int
  | .integer n => some n
  | _ => none

/-- The identifiers that a link holds, row by row. -/
def Content.held (c : Content) (link : Link) : List Int :=
  (c.rowsOf link.1.name).filterMap fun row => (row.value link.2.column).id?

/-- A layout where some links own the rows that they lead to: the links of configs, whose rows are not owned, and
the first links of junctions, whose second links lead to configs. What is owned has no links. -/
structure Ownership (L : List TableInfo) (K : List Link) (configs : List String) : Prop where
  layout : Layout L
  nodup : K.Nodup
  mem : ∀ link ∈ K, link.1 ∈ L ∧ link.2 ∈ link.1.foreignKeys
  parent : ∀ link ∈ K, ∀ p ∈ L, link.2.parent = p.name → p.name ∉ configs ∧ p.foreignKeys = []
  config : ∀ t ∈ L, t.name ∈ configs → ∀ k ∈ t.foreignKeys, (t, k) ∈ K ∧ k.onDelete = .setNull
  junction : ∀ t ∈ L, t.name ∉ configs → t.foreignKeys = [] ∨ ∃ k o, t.foreignKeys = [k, o] ∧ (t, k) ∈ K ∧
    o.parent ∈ configs ∧ k.onDelete = .cascade ∧ o.onDelete = .cascade

/-- The rows of a table that wait for their owner. -/
def waiting (new : Option (String × Int)) (name : String) : List Int :=
  match new with
  | some (table, id) => if table = name then [id] else []
  | none => []

/-- The identifiers of a table that are held by its owners. -/
def Content.owned (K : List Link) (c : Content) (name : String) : List Int :=
  (K.filter fun link => link.2.parent = name).flatMap c.held

/-- Every row has exactly one owner, except for one that may be new; configs have one row, which owns all rows of
junctions. -/
structure Content.Owned (L : List TableInfo) (K : List Link) (configs : List String) (new : Option (String × Int))
    (c : Content) : Prop where
  sound : c.Sound L
  conserved : ∀ p ∈ L, p.name ∉ configs → p.foreignKeys = [] →
    (waiting new p.name ++ c.owned K p.name).Perm (c.idsOf p.name)
  single : ∀ t ∈ L, t.name ∈ configs → c.idsOf t.name = [1]
  members : ∀ t ∈ L, t.name ∉ configs → ∀ k ∈ t.foreignKeys, ∀ row ∈ c.rowsOf t.name,
    ∃ n, row.value k.column = .integer n ∧ (k.parent ∈ configs → n = 1)

variable {L : List TableInfo} {K : List Link} {configs : List String} {new : Option (String × Int)} {c : Content}
  {t u p : TableInfo} {k : ForeignKeyInfo} {link : Link} {row : Row}

/-! ## Tables and their names -/

theorem Layout.eq_of_name (h : Layout L) (ht : t ∈ L) (hu : u ∈ L) (hn : t.name = u.name) : t = u :=
  h.apart.eq_of_sameName ht hu (hn ▸ sameName_self _)

theorem Layout.sameName_of_ne (h : Layout L) (ht : t ∈ L) (hu : u ∈ L) (hn : t.name ≠ u.name) :
    sameName t.name u.name = false := by
  rw [Bool.eq_false_iff]
  exact fun hs => hn (congrArg TableInfo.name (h.apart.eq_of_sameName ht hu hs))

theorem Layout.eq_of_column (h : Layout L) (ht : t ∈ L) {j : ForeignKeyInfo} (hj : j ∈ t.foreignKeys)
    (hk : k ∈ t.foreignKeys) (hcolumn : j.column = k.column) : j = k := by
  by_contra hne
  have : Std.Symm fun j k : ForeignKeyInfo => j.column ≠ k.column := ⟨fun _ _ h => h.symm⟩
  exact (h.columns t ht).forall hj hk hne hcolumn

/-- A change of the rows of one table leaves those of the others. -/
theorem rowsOf_onRows_other (h : Layout L) (ht : t ∈ L) (hu : u ∈ L) (hn : t.name ≠ u.name)
    (f : List Row → List Row) : (c.onRows t.name f).rowsOf u.name = c.rowsOf u.name :=
  rowsOf_onRows_of_ne (h.sameName_of_ne ht hu hn) f

theorem held_congr {d : Content} (h : c.rowsOf link.1.name = d.rowsOf link.1.name) : c.held link = d.held link := by
  unfold Content.held
  rw [h]

theorem held_of_rowsOf (link : Link) {name : String} (hn : name = link.1.name) (h : c.rowsOf name = [row]) :
    c.held link = (row.value link.2.column).id?.toList := by
  unfold Content.held
  rw [← hn, h, List.filterMap_cons]
  cases (row.value link.2.column).id? <;> rfl

namespace Ownership

/-- A table with an owning link is not one whose rows are owned. -/
theorem name_ne (ho : Ownership L K configs) (hl : link ∈ K) (hp : p ∈ L) (hleaf : p.foreignKeys = []) :
    link.1.name ≠ p.name := by
  intro hn
  obtain ⟨ht, hk⟩ := ho.mem link hl
  rw [ho.layout.eq_of_name ht hp hn, hleaf] at hk
  cases hk

/-- Junctions have one owning link. -/
theorem eq_of_junction (ho : Ownership L K configs) (ht : t ∈ L) (hconfig : t.name ∉ configs) (hk : (t, k) ∈ K)
    {j : ForeignKeyInfo} (hj : j ∈ t.foreignKeys) (hparent : j.parent ∉ configs) : j = k := by
  obtain ⟨p, hp, hlink⟩ := ho.layout.links t ht k (ho.mem _ hk).2
  have hkp : k.parent ∉ configs := by
    rw [hlink.parent]
    exact (ho.parent _ hk p hp hlink.parent).1
  have hmem := (ho.mem _ hk).2
  rcases ho.junction t ht hconfig with hnone | ⟨k', o, hkeys, -, hoc, -⟩
  · dsimp only at hmem
    rw [hnone] at hmem
    cases hmem
  · dsimp only at hmem
    rw [hkeys, List.mem_pair] at hmem hj
    have hko : k = k' := hmem.resolve_right fun he => hkp (he ▸ hoc)
    have hjo : j = k' := hj.resolve_right fun he => hparent (he ▸ hoc)
    rw [hko, hjo]

/-- A link to a row that can be owned owns it. -/
theorem mem_of_parent (ho : Ownership L K configs) (ht : t ∈ L) (hk : k ∈ t.foreignKeys)
    (hparent : k.parent ∉ configs) : (t, k) ∈ K := by
  by_cases hconfig : t.name ∈ configs
  · exact (ho.config t ht hconfig k hk).1
  · rcases ho.junction t ht hconfig with hnone | ⟨k', o, hkeys, hmem, hoc, -⟩
    · rw [hnone] at hk
      cases hk
    · rw [hkeys, List.mem_pair] at hk
      rw [hk.resolve_right fun he => hparent (he ▸ hoc)]
      exact hmem

end Ownership

/-! ## What is owned -/

theorem mem_held {n : Int} : n ∈ c.held link ↔ ∃ row ∈ c.rowsOf link.1.name, row.value link.2.column = .integer n := by
  unfold Content.held
  rw [List.mem_filterMap]
  refine exists_congr fun row => and_congr_right fun _ => ?_
  cases row.value link.2.column <;> simp [Value.id?]

namespace Content.Owned

/-- A row that is held exists. -/
theorem mem_ids (ho : Ownership L K configs) (hc : c.Owned L K configs new) (hl : link ∈ K) {n : Int}
    (hn : n ∈ c.held link) : n ∈ c.idsOf link.2.parent := by
  obtain ⟨ht, hk⟩ := ho.mem link hl
  obtain ⟨p, hp, hlink⟩ := ho.layout.links link.1 ht link.2 hk
  obtain ⟨hconfig, hleaf⟩ := ho.parent link hl p hp hlink.parent
  rw [hlink.parent]
  refine (hc.conserved p hp hconfig hleaf).subset (List.mem_append_right _ ?_)
  exact List.mem_flatMap.2 ⟨link, List.mem_filter.2 ⟨hl, by simpa using hlink.parent⟩, hn⟩

/-- Every link leads to a row. -/
theorem linked (ho : Ownership L K configs) (hc : c.Owned L K configs new) : c.Linked L := by
  intro t ht k hk row hr n hv
  by_cases hparent : k.parent ∈ configs
  · have hconfig : t.name ∉ configs := by
      intro hconfig
      obtain ⟨p, hp, hlink⟩ := ho.layout.links t ht k hk
      have := (ho.parent _ (ho.config t ht hconfig k hk).1 p hp hlink.parent).1
      rw [← hlink.parent] at this
      exact this hparent
    obtain ⟨p, hp, hlink⟩ := ho.layout.links t ht k hk
    obtain ⟨m, hm, hone⟩ := hc.members t ht hconfig k hk row hr
    rw [hv] at hm
    cases hm
    rw [hone hparent, hlink.parent, hc.single p hp (hlink.parent ▸ hparent)]
    exact List.mem_singleton_self 1
  · exact hc.mem_ids ho (ho.mem_of_parent ht hk hparent) (mem_held.2 ⟨row, hr, hv⟩)

/-- Nothing is orphaned. -/
theorem orphans_eq_zero (ho : Ownership L K configs) (hc : c.Owned L K configs new) (deferred : Bool) :
    orphans c deferred = 0 :=
  Sql.orphans_eq_zero ho.layout hc.sound (hc.linked ho) deferred

/-- A config has one row, which has the identifier 1. -/
theorem row_of_config (hc : c.Owned L K configs new) (ht : t ∈ L) (hconfig : t.name ∈ configs) :
    ∃ row, c.rowsOf t.name = [row] ∧ row.id = 1 := by
  have hids := hc.single t ht hconfig
  unfold Content.idsOf at hids
  obtain ⟨row, hrow, hid⟩ := List.map_eq_singleton_iff.1 hids
  exact ⟨row, hrow, hid⟩

end Content.Owned

/-! ## Rows that are added -/

theorem insertRow_perm (row : Row) (rows : List Row) : (Stored.insertRow row rows).Perm (row :: rows) := by
  induction rows with
  | nil => exact .refl _
  | cons r rows ih =>
    rw [Stored.insertRow]
    split
    · exact .refl _
    · exact (ih.cons r).trans (.swap row r rows)

/-- If one of several lists gets one more element, so do they together. -/
theorem perm_flatMap_cons {α β : Type} {l : List α} (hd : l.Nodup) {a : α} (ha : a ∈ l) {f g : α → List β} {b : β}
    (hself : (g a).Perm (b :: f a)) (hother : ∀ x ∈ l, x ≠ a → g x = f x) : (l.flatMap g).Perm (b :: l.flatMap f) := by
  induction l with
  | nil => cases ha
  | cons x l ih =>
    obtain ⟨hx, hd⟩ := List.nodup_cons.1 hd
    rw [List.flatMap_cons, List.flatMap_cons]
    rcases List.mem_cons.1 ha with rfl | ha'
    · have hrest : l.flatMap g = l.flatMap f := List.flatMap_congr fun y hy =>
        hother y (List.mem_cons_of_mem _ hy) fun he => hx (he ▸ hy)
      rw [hrest]
      exact hself.append_right _
    · have hxa : x ≠ a := fun he => hx (he ▸ ha')
      have hrest := ih hd ha' fun y hy => hother y (List.mem_cons_of_mem _ hy)
      rw [hother x (List.mem_cons_self ..) hxa]
      exact (hrest.append_left (f x)).trans List.perm_middle

namespace Content.Owned

/-- That an identifier has been used changes nothing of what is owned. -/
theorem note (hc : c.Owned L K configs new) (name : String) (id : Int) : (c.note name id).Owned L K configs new where
  sound := sound_note hc.sound name id
  conserved p hp hpc hleaf := by
    have howned : (c.note name id).owned K p.name = c.owned K p.name :=
      List.flatMap_congr fun link _ => held_congr (Content.rowsOf_note ..)
    unfold Content.idsOf
    rw [howned, Content.rowsOf_note]
    exact hc.conserved p hp hpc hleaf
  single t ht htc := by
    unfold Content.idsOf
    rw [Content.rowsOf_note]
    exact hc.single t ht htc
  members t ht htc k hk row hr := by
    rw [Content.rowsOf_note] at hr
    exact hc.members t ht htc k hk row hr

/-- A new row of a table whose rows are owned waits for its owner. -/
theorem insert_item (ho : Ownership L K configs) (hc : c.Owned L K configs none) (hp : p ∈ L)
    (hconfig : p.name ∉ configs) (hleaf : p.foreignKeys = []) (hnew : ∀ other ∈ c.rowsOf p.name, other.id ≠ row.id)
    (hfit : row.Fits p) :
    (c.onRows p.name (Stored.insertRow row)).Owned L K configs (some (p.name, row.id)) where
  sound := sound_insert ho.layout hc.sound hp hnew hfit
  conserved q hq hqc hqleaf := by
    have hheld : (c.onRows p.name (Stored.insertRow row)).owned K q.name = c.owned K q.name := by
      refine List.flatMap_congr fun link hl => held_congr ?_
      have hl := (List.mem_filter.1 hl).1
      exact rowsOf_onRows_other ho.layout hp (ho.mem link hl).1 (ho.name_ne hl hp hleaf).symm _
    have hbefore := hc.conserved q hq hqc hqleaf
    rw [hheld]
    unfold Content.idsOf waiting at *
    dsimp only
    by_cases hn : p.name = q.name
    · obtain rfl := ho.layout.eq_of_name hp hq hn
      rw [if_pos hn, rowsOf_onRows_self (hc.sound.apart ho.layout) (hc.sound.infos ▸ hp)]
      have hids := (insertRow_perm row (c.rowsOf p.name)).map Row.id
      exact (hbefore.cons row.id).trans hids.symm
    · rw [if_neg hn, rowsOf_onRows_other ho.layout hp hq hn]
      exact hbefore
  single t ht htc := by
    unfold Content.idsOf
    rw [rowsOf_onRows_other ho.layout hp ht fun hn => hconfig (hn ▸ htc)]
    exact hc.single t ht htc
  members t ht htc k hk other hother := by
    have hn : p.name ≠ t.name := by
      intro hn
      rw [← ho.layout.eq_of_name hp ht hn, hleaf] at hk
      cases hk
    rw [rowsOf_onRows_other ho.layout hp ht hn] at hother
    exact hc.members t ht htc k hk other hother

/-- A new row of a junction owns the row that has been waiting. -/
theorem insert_link (ho : Ownership L K configs) (ht : t ∈ L) (hconfig : t.name ∉ configs) (hk : (t, k) ∈ K) {n : Int}
    (hc : c.Owned L K configs (some (k.parent, n))) (hnew : ∀ other ∈ c.rowsOf t.name, other.id ≠ row.id)
    (hfit : row.Fits t) (hn : row.value k.column = .integer n)
    (hone : ∀ j ∈ t.foreignKeys, j.parent ∈ configs → row.value j.column = .integer 1) :
    (c.onRows t.name (Stored.insertRow row)).Owned L K configs none where
  sound := sound_insert ho.layout hc.sound ht hnew hfit
  conserved q hq hqc hqleaf := by
    have hqt := ho.name_ne hk hq hqleaf
    have hbefore := hc.conserved q hq hqc hqleaf
    have hother : ∀ link ∈ K.filter fun link => link.2.parent = q.name, link ≠ (t, k) →
        (c.onRows t.name (Stored.insertRow row)).held link = c.held link := by
      intro link hl hne
      obtain ⟨hl, hparent⟩ := List.mem_filter.1 hl
      obtain ⟨hlt, hlk⟩ := ho.mem link hl
      refine held_congr (rowsOf_onRows_other ho.layout ht hlt (fun hname => hne ?_) _)
      have hsame := ho.layout.eq_of_name ht hlt hname
      have hkey : link.2 = k := ho.eq_of_junction ht hconfig hk (hsame ▸ hlk) (by
        rw [show link.2.parent = q.name by simpa using hparent]
        exact hqc)
      exact Prod.ext hsame.symm hkey
    -- the link of the junction gains the identifier that has been waiting
    have hself : ((c.onRows t.name (Stored.insertRow row)).held (t, k)).Perm (n :: c.held (t, k)) := by
      unfold Content.held
      dsimp only
      rw [rowsOf_onRows_self (hc.sound.apart ho.layout) (hc.sound.infos ▸ ht)]
      have h := (insertRow_perm row (c.rowsOf t.name)).filterMap fun row => (row.value k.column).id?
      rwa [List.filterMap_cons_some (by rw [hn]; rfl)] at h
    unfold Content.idsOf waiting Content.owned at *
    dsimp only at *
    rw [rowsOf_onRows_other ho.layout ht hq hqt]
    by_cases hparent : k.parent = q.name
    · rw [if_pos hparent] at hbefore
      refine List.Perm.trans ?_ hbefore
      exact perm_flatMap_cons (ho.nodup.filter _) (List.mem_filter.2 ⟨hk, by simpa using hparent⟩) hself hother
    · rw [if_neg hparent] at hbefore
      refine List.Perm.trans (.of_eq ?_) hbefore
      refine List.flatMap_congr fun link hl => hother link hl ?_
      rintro rfl
      exact hparent (by simpa using (List.mem_filter.1 hl).2)
  single u hu huc := by
    unfold Content.idsOf
    rw [rowsOf_onRows_other ho.layout ht hu fun hn => hconfig (hn ▸ huc)]
    exact hc.single u hu huc
  members u hu huc j hj other hother := by
    by_cases hname : t.name = u.name
    · obtain rfl := ho.layout.eq_of_name ht hu hname
      rw [rowsOf_onRows_self (hc.sound.apart ho.layout) (hc.sound.infos ▸ ht)] at hother
      rcases Stored.mem_insertRow.1 hother with rfl | hother
      · by_cases hparent : j.parent ∈ configs
        · exact ⟨1, hone j hj hparent, fun _ => rfl⟩
        · rw [ho.eq_of_junction ht hconfig hk hj hparent] at *
          exact ⟨n, hn, fun hp => absurd hp hparent⟩
      · exact hc.members t ht hconfig j hj other hother
    · rw [rowsOf_onRows_other ho.layout ht hu hname] at hother
      exact hc.members u hu huc j hj other hother

end Content.Owned

/-! ## The row of a config -/

/-- The effect of an assignment to the only row of a table. -/
theorem rowsOf_assign (h : Layout L) (hc : c.Sound L) (ht : t ∈ L) (hrows : c.rowsOf t.name = [row]) (i : Nat)
    (v : Value) :
    (c.onRows t.name fun rows => Stored.insertRow (t.assign i v row) (rows.filter (·.id != row.id))).rowsOf t.name =
      [t.assign i v row] := by
  rw [rowsOf_onRows_self (hc.apart h) (hc.infos ▸ ht), hrows, List.filter_cons_of_neg (by simp)]
  rfl

namespace Content.Owned

/-- What an assignment to the row of a config keeps, given what the links hold. -/
theorem assign (ho : Ownership L K configs) {new' : Option (String × Int)} (hc : c.Owned L K configs new) (ht : t ∈ L)
    (hconfig : t.name ∈ configs) (hrows : c.rowsOf t.name = [row]) {i : Nat} (hi : i < t.columns.length) {v : Value}
    (hv : ∀ k ∈ t.foreignKeys, k.column = i → v = .null ∨ ∃ n, v = .integer n) {after : Content}
    (hafter : after = c.onRows t.name fun rows =>
      Stored.insertRow (t.assign i v row) (rows.filter (·.id != row.id)))
    (hconserved : ∀ q ∈ L, q.name ∉ configs → q.foreignKeys = [] →
      (waiting new' q.name ++ after.owned K q.name).Perm (waiting new q.name ++ c.owned K q.name)) :
    after.Owned L K configs new' := by
  have h := ho.layout
  have hother : ∀ u ∈ L, t.name ≠ u.name → after.rowsOf u.name = c.rowsOf u.name := fun u hu hn => by
    rw [hafter, rowsOf_onRows_other h ht hu hn]
  have hfit := hc.sound.fits t ht row (by rw [hrows]; exact List.mem_singleton_self row)
  refine ⟨?_, fun q hq hqc hqleaf => ?_, fun u hu huc => ?_, fun u hu huc k hk other hother' => ?_⟩
  · rw [hafter]
    refine sound_replace h hc.sound ht (by rw [hrows]; exact List.mem_singleton_self row) (id_assign t i v row).symm ?_
    exact fits_assign (h.plain t ht) (fun k hk => (h.links t ht k hk).imp fun _ hp => hp.2) hfit hi hv
  · refine (hconserved q hq hqc hqleaf).trans ?_
    unfold Content.idsOf
    rw [hother q hq fun hn => hqc (hn ▸ hconfig)]
    exact hc.conserved q hq hqc hqleaf
  · by_cases hn : t.name = u.name
    · obtain ⟨other, hother, hone⟩ := hc.row_of_config ht hconfig
      rw [hrows, List.cons.injEq] at hother
      unfold Content.idsOf
      rw [← hn, hafter, rowsOf_assign h hc.sound ht hrows, List.map_singleton, id_assign, hother.1, hone]
    · unfold Content.idsOf
      rw [hother u hu hn]
      exact hc.single u hu huc
  · rw [hother u hu fun hn => huc (hn ▸ hconfig)] at hother'
    exact hc.members u hu huc k hk other hother'

/-- A link of a config that holds nothing gets to own the row that has been waiting. -/
theorem assign_link (ho : Ownership L K configs) (ht : t ∈ L) (hconfig : t.name ∈ configs) (hk : (t, k) ∈ K) {n : Int}
    (hc : c.Owned L K configs (some (k.parent, n))) (hrows : c.rowsOf t.name = [row])
    (hnull : row.value k.column = .null) :
    (c.onRows t.name fun rows =>
      Stored.insertRow (t.assign k.column (.integer n) row) (rows.filter (·.id != row.id))).Owned L K configs none := by
  have h := ho.layout
  have hmem := (ho.mem _ hk).2
  obtain ⟨p, hp, hlink⟩ := h.links t ht k hmem
  obtain ⟨column, hcol, -⟩ := hlink.column
  have hi := (List.getElem?_eq_some_iff.1 hcol).1
  have hfit := hc.sound.fits t ht row (by rw [hrows]; exact List.mem_singleton_self row)
  have hvalue : ∀ j ∈ t.foreignKeys, (t.assign k.column (.integer n) row).value j.column =
      if j.column = k.column then .integer n else row.value j.column := fun j hj =>
    value_assign_link (h.plain t ht) (fun k hk => (h.links t ht k hk).imp fun _ hp => hp.2) hfit hi
      (fun _ _ _ => .inr ⟨n, rfl⟩) hj
  refine hc.assign ho ht hconfig hrows hi (fun _ _ _ => .inr ⟨n, rfl⟩) rfl fun q hq hqc hqleaf => ?_
  -- the other links hold what they held
  have hother : ∀ link ∈ K.filter fun link => link.2.parent = q.name, link ≠ (t, k) →
      (c.onRows t.name fun rows =>
        Stored.insertRow (t.assign k.column (.integer n) row) (rows.filter (·.id != row.id))).held link =
        c.held link := by
    intro link hl hne
    obtain ⟨hlt, hlk⟩ := ho.mem link (List.mem_filter.1 hl).1
    by_cases hname : t.name = link.1.name
    · have hsame := h.eq_of_name ht hlt hname
      rw [← hsame] at hlk
      have hcolumn : link.2.column ≠ k.column := fun hcolumn =>
        hne (Prod.ext hsame.symm (h.eq_of_column ht hlk hmem hcolumn))
      rw [held_of_rowsOf _ hname (rowsOf_assign h hc.sound ht hrows ..), held_of_rowsOf _ hname hrows,
        hvalue link.2 hlk, if_neg hcolumn]
    · exact held_congr (rowsOf_onRows_other h ht hlt hname _)
  have hself : ((c.onRows t.name fun rows =>
        Stored.insertRow (t.assign k.column (.integer n) row) (rows.filter (·.id != row.id))).held (t, k)).Perm
      (n :: c.held (t, k)) := by
    rw [held_of_rowsOf _ rfl (rowsOf_assign h hc.sound ht hrows ..), held_of_rowsOf _ rfl hrows, hvalue k hmem, if_pos rfl, hnull]
    exact .refl _
  unfold waiting Content.owned
  dsimp only
  by_cases hparent : k.parent = q.name
  · rw [if_pos hparent]
    exact perm_flatMap_cons (ho.nodup.filter _) (List.mem_filter.2 ⟨hk, by simpa using hparent⟩) hself hother
  · rw [if_neg hparent]
    refine .of_eq (List.flatMap_congr fun link hl => hother link hl ?_)
    rintro rfl
    exact hparent (by simpa using (List.mem_filter.1 hl).2)

/-- A column of a config that is no link can be assigned to. -/
theorem assign_other (ho : Ownership L K configs) (hc : c.Owned L K configs new) (ht : t ∈ L)
    (hconfig : t.name ∈ configs) (hrows : c.rowsOf t.name = [row]) {i : Nat} (hi : i < t.columns.length)
    (hlink : ∀ k ∈ t.foreignKeys, k.column ≠ i) (v : Value) :
    (c.onRows t.name fun rows =>
      Stored.insertRow (t.assign i v row) (rows.filter (·.id != row.id))).Owned L K configs new := by
  have h := ho.layout
  have hfit := hc.sound.fits t ht row (by rw [hrows]; exact List.mem_singleton_self row)
  refine hc.assign ho ht hconfig hrows hi (fun k hk he => absurd he (hlink k hk)) rfl fun q hq hqc hqleaf => ?_
  refine .of_eq (congrArg (waiting new q.name ++ ·) (List.flatMap_congr fun link hl => ?_))
  obtain ⟨hlt, hlk⟩ := ho.mem link (List.mem_filter.1 hl).1
  by_cases hname : t.name = link.1.name
  · rw [← h.eq_of_name ht hlt hname] at hlk
    rw [held_of_rowsOf _ hname (rowsOf_assign h hc.sound ht hrows ..), held_of_rowsOf _ hname hrows,
      value_assign_link (h.plain t ht) (fun k hk => (h.links t ht k hk).imp fun _ hp => hp.2) hfit hi
        (fun k hk he => absurd he (hlink k hk)) hlk, if_neg (hlink link.2 hlk)]
  · exact held_congr (rowsOf_onRows_other h ht hlt hname _)

end Content.Owned

/-! ## Rows that are deleted -/

theorem id?_eq_some {v : Value} {n : Int} : v.id? = some n ↔ v = .integer n := by
  cases v <;> simp [Value.id?]

/-- What a link to a deleted row holds once it has been released. -/
theorem held_unlink_self (ho : Ownership L K configs) (hc : c.Sound L) (hl : link ∈ K) (id : Int) :
    (c.onRows link.1.name (link.1.unlink link.2 id)).held link = (c.held link).filter (· ≠ id) := by
  obtain ⟨ht, hk⟩ := ho.mem link hl
  have h := ho.layout
  obtain ⟨p, -, hlink⟩ := h.links link.1 ht link.2 hk
  obtain ⟨column, hcol, -, haction⟩ := hlink.column
  have hi := (List.getElem?_eq_some_iff.1 hcol).1
  unfold Content.held
  rw [rowsOf_onRows_self (hc.apart h) (hc.infos ▸ ht)]
  unfold TableInfo.unlink
  rw [List.filterMap_filterMap, List.filter_filterMap]
  refine List.filterMap_congr fun row hr => ?_
  have hfit := hc.fits link.1 ht row hr
  by_cases hv : row.value link.2.column = .integer id
  · rw [if_pos hv, hv]
    have hnone : (some id).filter (fun n => decide (n ≠ id)) = none := by simp [Option.filter]
    show _ = (some id).filter _
    rw [hnone]
    unfold TableInfo.release
    rcases haction with haction | ⟨haction, -⟩ <;> rw [haction]
    · rfl
    · have hnull := value_assign_link (h.plain _ ht) (fun k hk => (h.links _ ht k hk).imp fun _ hp => hp.2) hfit hi
        (v := .null) (fun _ _ _ => .inl rfl) hk
      rw [if_pos rfl] at hnull
      show (Row.value _ _).id? = none
      rw [hnull]
      rfl
  · rw [if_neg hv]
    show (row.value link.2.column).id? = _
    cases hid : (row.value link.2.column).id? with
    | none => rfl
    | some n =>
      have hne : n ≠ id := fun he => hv (he ▸ id?_eq_some.1 hid)
      simp [Option.filter, hne]

/-- The other owning links hold what they held. -/
theorem held_unlink_of_ne (ho : Ownership L K configs) (hc : c.Sound L) (hl : link ∈ K) {link' : Link}
    (hl' : link' ∈ K) (hne : link' ≠ link) (id : Int) :
    (c.onRows link.1.name (link.1.unlink link.2 id)).held link' = c.held link' := by
  obtain ⟨ht, hk⟩ := ho.mem link hl
  obtain ⟨ht', hk'⟩ := ho.mem link' hl'
  have h := ho.layout
  by_cases hname : link.1.name = link'.1.name
  · have hsame := h.eq_of_name ht ht' hname
    rw [← hsame] at hk'
    -- two owning links of one table are those of a config
    have hconfig : link.1.name ∈ configs := by
      by_contra hconfig
      obtain ⟨p, hp, hlink⟩ := h.links _ ht _ hk'
      have hparent := (ho.parent link' hl' p hp hlink.parent).1
      rw [← hlink.parent] at hparent
      exact hne (Prod.ext hsame.symm (ho.eq_of_junction ht hconfig hl hk' hparent))
    have hcolumn : link'.2.column ≠ link.2.column := fun hcolumn =>
      hne (Prod.ext hsame.symm (h.eq_of_column ht hk' hk hcolumn))
    have haction := (ho.config _ ht hconfig _ hk).2
    obtain ⟨p, -, hlink⟩ := h.links _ ht _ hk
    obtain ⟨column, hcol, -⟩ := hlink.column
    unfold Content.held
    rw [← hsame, rowsOf_onRows_self (hc.apart h) (hc.infos ▸ ht)]
    unfold TableInfo.unlink
    rw [List.filterMap_filterMap]
    refine List.filterMap_congr fun row hr => ?_
    split
    · unfold TableInfo.release
      rw [haction]
      have hvalue := value_assign_link (h.plain _ ht) (fun k hk => (h.links _ ht k hk).imp fun _ hp => hp.2)
        (hc.fits _ ht row hr) (List.getElem?_eq_some_iff.1 hcol).1 (v := .null) (fun _ _ _ => .inl rfl) hk'
      rw [if_neg hcolumn] at hvalue
      show (Row.value _ _).id? = _
      rw [hvalue]
    · rfl
  · exact held_congr (rowsOf_onRows_other h ht ht' hname _)

/-- What the owning links hold once some of them have been released. -/
theorem held_foldl_unlink (ho : Ownership L K configs) {links : List Link} (hlinks : ∀ link ∈ links, link ∈ K)
    (hc : c.Sound L) (hl : link ∈ K) (id : Int) :
    (link ∈ links → (links.foldl (fun c link => c.onRows link.1.name (link.1.unlink link.2 id)) c).held link =
      (c.held link).filter (· ≠ id)) ∧
    (link ∉ links → (links.foldl (fun c link => c.onRows link.1.name (link.1.unlink link.2 id)) c).held link =
      c.held link) := by
  induction links generalizing c with
  | nil => exact ⟨fun hn => absurd hn List.not_mem_nil, fun _ => rfl⟩
  | cons first links ih =>
    have hfirst := hlinks first (List.mem_cons_self ..)
    obtain ⟨ht, hk⟩ := ho.mem first hfirst
    obtain ⟨hin, hout⟩ := ih (fun l hl => hlinks l (List.mem_cons_of_mem _ hl)) (sound_unlink ho.layout hc ht hk id)
    rw [List.foldl_cons]
    by_cases he : link = first
    · subst he
      refine ⟨fun _ => ?_, fun hn => absurd (List.mem_cons_self ..) hn⟩
      have hself := held_unlink_self ho hc hl id
      by_cases hmem : link ∈ links
      · rw [hin hmem, hself, List.filter_filter]
        simp
      · rw [hout hmem, hself]
    · have hother := held_unlink_of_ne ho hc hfirst hl he id
      rw [hother] at hin hout
      exact ⟨fun hmem => hin ((List.mem_cons.1 hmem).resolve_left he),
        fun hmem => hout fun hm => hmem (List.mem_cons_of_mem _ hm)⟩

/-- A release of owning links takes out rows of junctions and leaves those of configs. -/
theorem rowsOf_foldl_release (ho : Ownership L K configs) {links : List Link} (hlinks : ∀ link ∈ links, link ∈ K)
    (hc : c.Sound L) (id : Int) (ht : t ∈ L) {after : Content}
    (hafter : after = links.foldl (fun c link => c.onRows link.1.name (link.1.unlink link.2 id)) c) :
    (t.name ∈ configs → after.idsOf t.name = c.idsOf t.name) ∧
      (t.name ∉ configs → ∀ row ∈ after.rowsOf t.name, row ∈ c.rowsOf t.name) := by
  subst hafter
  induction links generalizing c with
  | nil => exact ⟨fun _ => rfl, fun _ _ h => h⟩
  | cons first links ih =>
    have hfirst := hlinks first (List.mem_cons_self ..)
    obtain ⟨hu, hk⟩ := ho.mem first hfirst
    obtain ⟨hids, hrows⟩ := ih (fun l hl => hlinks l (List.mem_cons_of_mem _ hl)) (sound_unlink ho.layout hc hu hk id)
    rw [List.foldl_cons]
    by_cases hname : first.1.name = t.name
    · obtain rfl := ho.layout.eq_of_name hu ht hname
      have hself := rowsOf_onRows_self (hc.apart ho.layout) (hc.infos ▸ ht) (first.1.unlink first.2 id)
      refine ⟨fun hconfig => (hids hconfig).trans ?_, fun hconfig row hr => ?_⟩
      · have haction := (ho.config _ ht hconfig _ hk).2
        unfold Content.idsOf
        rw [hself]
        unfold TableInfo.unlink
        rw [List.map_filterMap, ← List.filterMap_eq_map]
        refine List.filterMap_congr fun row _ => ?_
        split
        · unfold TableInfo.release
          rw [haction]
          rfl
        · rfl
      · have hr := hrows hconfig row hr
        rw [hself] at hr
        obtain ⟨old, hold, hrel⟩ := List.mem_filterMap.1 hr
        split at hrel
        · rcases ho.junction _ ht hconfig with hnone | ⟨k, o, hkeys, -, -, hcascade, hcascade'⟩
          · rw [hnone] at hk
            cases hk
          · rw [hkeys, List.mem_pair] at hk
            unfold TableInfo.release at hrel
            rcases hk with hk | hk
            · rw [hk, hcascade] at hrel
              cases hrel
            · rw [hk, hcascade'] at hrel
              cases hrel
        · cases hrel
          exact hold
    · have hother := rowsOf_onRows_other ho.layout hu ht hname (c := c) (first.1.unlink first.2 id)
      unfold Content.idsOf at hids ⊢
      rw [hother] at hids hrows
      exact ⟨hids, hrows⟩

/-- Links to rows that can be owned own them. -/
theorem linksTo_subset (ho : Ownership L K configs) (hp : p ∈ L) (hconfig : p.name ∉ configs) :
    ∀ link ∈ linksTo L p.name, link ∈ K := by
  rintro ⟨t, k⟩ hl
  obtain ⟨ht, hk, hparent⟩ := (mem_linksTo ho.layout hp).1 hl
  exact ho.mem_of_parent ht hk (hparent ▸ hconfig)

/-- What the owning links hold once a row is deleted. -/
theorem held_removed (ho : Ownership L K configs) (hc : c.Sound L) (hp : p ∈ L) (hconfig : p.name ∉ configs)
    (hleaf : p.foreignKeys = []) (hl : link ∈ K) (id : Int) :
    (link.2.parent = p.name → (c.removed L p.name id).held link = (c.held link).filter (· ≠ id)) ∧
      (link.2.parent ≠ p.name → (c.removed L p.name id).held link = c.held link) := by
  have h := ho.layout
  obtain ⟨ht, hk⟩ := ho.mem link hl
  have hrows : (c.onRows p.name (·.filter (·.id != id))).held link = c.held link :=
    held_congr (rowsOf_onRows_other h hp ht (ho.name_ne hl hp hleaf).symm _)
  have hreleased := held_foldl_unlink ho (linksTo_subset ho hp hconfig) (sound_filter h hc hp (·.id != id)) hl id
  rw [hrows] at hreleased
  refine ⟨fun hparent => hreleased.1 ((mem_linksTo h hp).2 ⟨ht, hk, hparent⟩), fun hparent => hreleased.2 fun hmem => ?_⟩
  exact hparent ((mem_linksTo (t := link.1) (k := link.2) h hp).1 hmem).2.2

namespace Content.Owned

/-- When a row is deleted, its owner is released; every other row keeps its owner. -/
theorem removed (ho : Ownership L K configs) (hc : c.Owned L K configs new) (hp : p ∈ L) (hconfig : p.name ∉ configs)
    (hleaf : p.foreignKeys = []) {id : Int} (hnew : id ∉ waiting new p.name) :
    (c.removed L p.name id).Owned L K configs new := by
  have h := ho.layout
  have hfilter := sound_filter h hc.sound hp (·.id != id)
  have hlinks := linksTo_subset ho hp hconfig
  have hrows : ∀ q ∈ L, q.foreignKeys = [] →
      (c.removed L p.name id).rowsOf q.name = (c.onRows p.name (·.filter (·.id != id))).rowsOf q.name := by
    intro q hq hqleaf
    refine rowsOf_foldl_unlink (fun link hl => ?_) id
    exact h.sameName_of_ne (ho.mem link (hlinks link hl)).1 hq (ho.name_ne (hlinks link hl) hq hqleaf)
  refine ⟨sound_removed h hc.sound hp id, ?conserved, ?single, ?members⟩
  case conserved =>
    intro q hq hqc hqleaf
    have hbefore := hc.conserved q hq hqc hqleaf
    unfold Content.idsOf
    rw [hrows q hq hqleaf]
    by_cases hn : p.name = q.name
    · -- the identifier is taken out on both sides
      obtain rfl := h.eq_of_name hp hq hn
      have hafter := hbefore.filter (· ≠ id)
      rw [List.filter_append, List.filter_eq_self.2 fun n hw => by
        simpa using fun he : n = id => hnew (he ▸ hw)] at hafter
      refine (List.Perm.append_left _ (.of_eq ?_)).trans (hafter.trans (.of_eq ?_))
      · unfold Content.owned
        rw [List.filter_flatMap]
        refine List.flatMap_congr fun link hl => ?_
        obtain ⟨hl, hparent⟩ := List.mem_filter.1 hl
        exact (held_removed ho hc.sound hp hconfig hleaf hl id).1 (of_decide_eq_true hparent)
      · rw [rowsOf_onRows_self (hc.sound.apart h) (hc.sound.infos ▸ hp)]
        unfold Content.idsOf
        rw [List.filter_map]
        congr 1
        refine List.filter_congr fun row _ => ?_
        simp [bne, BEq.beq]
    · rw [rowsOf_onRows_other h hp hq hn]
      refine (List.Perm.append_left _ (.of_eq ?_)).trans hbefore
      refine List.flatMap_congr fun link hl => ?_
      obtain ⟨hl, hparent⟩ := List.mem_filter.1 hl
      refine (held_removed ho hc.sound hp hconfig hleaf hl id).2 fun hparent' => hn ?_
      exact hparent'.symm.trans (of_decide_eq_true hparent)
  case single =>
    intro t ht htc
    have hother := rowsOf_onRows_other h hp ht (fun hn => hconfig (hn ▸ htc)) (c := c) (·.filter (·.id != id))
    have hids := (rowsOf_foldl_release ho hlinks hfilter id ht rfl).1 htc
    unfold Content.idsOf at hids
    rw [hother] at hids
    exact hids.trans (hc.single t ht htc)
  case members =>
    intro t ht htc k hk row hr
    have hn : p.name ≠ t.name := by
      intro hn
      rw [← h.eq_of_name hp ht hn, hleaf] at hk
      cases hk
    have hr := (rowsOf_foldl_release ho hlinks hfilter id ht rfl).2 htc row hr
    rw [rowsOf_onRows_other h hp ht hn] at hr
    exact hc.members t ht htc k hk row hr

end Content.Owned

/-! ## Several rows that are deleted -/

/-- What is left of a table from which rows are deleted. -/
theorem rowsOf_removedAll_self (h : Layout L) (hc : c.Sound L) (hp : p ∈ L)
    (hself : ∀ k ∈ p.foreignKeys, k.parent ≠ p.name) (ids : List Int) :
    (c.removedAll L p.name ids).rowsOf p.name = (c.rowsOf p.name).filter (·.id ∉ ids) := by
  unfold Content.removedAll
  induction ids generalizing c with
  | nil =>
    show c.rowsOf p.name = _
    rw [List.filter_eq_self.2 fun row _ => by simp]
  | cons id ids ih =>
    rw [List.foldl_cons, ih (sound_removed h hc hp id), rowsOf_removed_self h hc hp hself, List.filter_filter]
    refine List.filter_congr fun row _ => ?_
    rw [Bool.eq_iff_iff]
    simp only [Bool.and_eq_true, decide_eq_true_iff, bne_iff_ne, List.mem_cons, not_or]
    exact and_comm

/-- What an owning link to a table holds once rows of that are deleted. -/
theorem held_removedAll (ho : Ownership L K configs) (hc : c.Sound L) (hp : p ∈ L) (hconfig : p.name ∉ configs)
    (hleaf : p.foreignKeys = []) (hl : link ∈ K) (hparent : link.2.parent = p.name) (ids : List Int) :
    (c.removedAll L p.name ids).held link = (c.held link).filter (· ∉ ids) := by
  unfold Content.removedAll
  induction ids generalizing c with
  | nil =>
    show c.held link = _
    rw [List.filter_eq_self.2 fun n _ => by simp]
  | cons id ids ih =>
    rw [List.foldl_cons, ih (sound_removed ho.layout hc hp id), (held_removed ho hc hp hconfig hleaf hl id).1 hparent,
      List.filter_filter]
    refine List.filter_congr fun n _ => ?_
    rw [Bool.eq_iff_iff]
    simp only [Bool.and_eq_true, decide_eq_true_iff, List.mem_cons, not_or]
    exact and_comm

/-- What the other owning links hold. -/
theorem held_removedAll_of_ne (ho : Ownership L K configs) (hc : c.Sound L) (hp : p ∈ L) (hconfig : p.name ∉ configs)
    (hleaf : p.foreignKeys = []) (hl : link ∈ K) (hparent : link.2.parent ≠ p.name) (ids : List Int) :
    (c.removedAll L p.name ids).held link = c.held link := by
  unfold Content.removedAll
  induction ids generalizing c with
  | nil => rfl
  | cons id ids ih =>
    rw [List.foldl_cons, ih (sound_removed ho.layout hc hp id), (held_removed ho hc hp hconfig hleaf hl id).2 hparent]

/-- Another table whose rows can be owned stays as it is. -/
theorem rowsOf_removedAll_of_ne (ho : Ownership L K configs) (hp : p ∈ L) (hconfig : p.name ∉ configs) (ht : t ∈ L)
    (hleaf : t.foreignKeys = []) (hn : p.name ≠ t.name) (ids : List Int) :
    (c.removedAll L p.name ids).rowsOf t.name = c.rowsOf t.name := by
  have h := ho.layout
  unfold Content.removedAll
  induction ids generalizing c with
  | nil => rfl
  | cons id ids ih =>
    rw [List.foldl_cons, ih]
    unfold Content.removed
    rw [rowsOf_foldl_unlink fun link hl => ?_, rowsOf_onRows_other h hp ht hn]
    have hl := linksTo_subset ho hp hconfig link hl
    exact h.sameName_of_ne (ho.mem link hl).1 ht (ho.name_ne hl ht hleaf)

/-- No rows are added, except to configs. -/
theorem mem_of_mem_removedAll (ho : Ownership L K configs) (hc : c.Sound L) (hp : p ∈ L) (hconfig : p.name ∉ configs)
    (ht : t ∈ L) (htc : t.name ∉ configs) {ids : List Int} (hr : row ∈ (c.removedAll L p.name ids).rowsOf t.name) :
    row ∈ c.rowsOf t.name := by
  have h := ho.layout
  unfold Content.removedAll at hr
  induction ids generalizing c with
  | nil => exact hr
  | cons id ids ih =>
    have hr := ih (sound_removed h hc hp id) hr
    have hfiltered := (rowsOf_foldl_release ho (linksTo_subset ho hp hconfig) (sound_filter h hc hp (·.id != id)) id ht
      rfl).2 htc row hr
    by_cases hn : p.name = t.name
    · obtain rfl := h.eq_of_name hp ht hn
      rw [rowsOf_onRows_self (hc.apart h) (hc.infos ▸ hp)] at hfiltered
      exact (List.mem_filter.1 hfiltered).1
    · rwa [rowsOf_onRows_other h hp ht hn] at hfiltered

/-- The release of a link leaves the values of a config that are no links. -/
theorem values_unlink (h : Layout L) (hc : c.Sound L) (hl : link.1 ∈ L ∧ link.2 ∈ link.1.foreignKeys) (ht : t ∈ L)
    (haction : link.1 = t → link.2.onDelete = .setNull) {j : Nat} {column : ColumnInfo} (hj : t.columns[j]? = some column)
    (hfree : ∀ k ∈ t.foreignKeys, k.column ≠ j) (id : Int) :
    ((c.onRows link.1.name (link.1.unlink link.2 id)).rowsOf t.name).map (·.value j) =
      (c.rowsOf t.name).map (·.value j) := by
  obtain ⟨hlt, hk⟩ := hl
  by_cases hn : link.1.name = t.name
  · obtain rfl := h.eq_of_name hlt ht hn
    obtain ⟨p, -, hlink⟩ := h.links _ ht _ hk
    obtain ⟨linked, hcol, -⟩ := hlink.column
    rw [rowsOf_onRows_self (hc.apart h) (hc.infos ▸ ht)]
    unfold TableInfo.unlink
    rw [List.map_filterMap, ← List.filterMap_eq_map]
    refine List.filterMap_congr fun row hr => ?_
    split
    · unfold TableInfo.release
      rw [haction rfl]
      have hvalue := value_assign (h.plain _ ht) (hc.fits _ ht row hr) (List.getElem?_eq_some_iff.1 hcol).1 hlink.ne_key hj .null
      rw [if_neg fun he => hfree _ hk he.symm] at hvalue
      exact congrArg some hvalue
    · rfl
  · rw [rowsOf_onRows_other h hlt ht hn]

/-- The values of a config that are no links stay as they are. -/
theorem values_removedAll (ho : Ownership L K configs) (hc : c.Sound L) (hp : p ∈ L) (hconfig : p.name ∉ configs)
    (ht : t ∈ L) (htc : t.name ∈ configs) {j : Nat} {column : ColumnInfo} (hj : t.columns[j]? = some column)
    (hfree : ∀ k ∈ t.foreignKeys, k.column ≠ j) (ids : List Int) :
    ((c.removedAll L p.name ids).rowsOf t.name).map (·.value j) = (c.rowsOf t.name).map (·.value j) := by
  have h := ho.layout
  have hfold : ∀ (links : List Link) (c : Content), (∀ link ∈ links, link ∈ K) → c.Sound L → ∀ id,
      ((links.foldl (fun c link => c.onRows link.1.name (link.1.unlink link.2 id)) c).rowsOf t.name).map (·.value j) =
        (c.rowsOf t.name).map (·.value j) := by
    intro links
    induction links with
    | nil => exact fun _ _ _ _ => rfl
    | cons link links ih =>
      intro c hlinks hc id
      obtain ⟨hl, hlinks⟩ := List.forall_mem_cons.1 hlinks
      obtain ⟨hlt, hk⟩ := ho.mem link hl
      rw [List.foldl_cons, ih _ hlinks (sound_unlink h hc hlt hk id)]
      exact values_unlink h hc ⟨hlt, hk⟩ ht (fun he => (ho.config _ hlt (he ▸ htc) _ hk).2) hj hfree id
  unfold Content.removedAll
  induction ids generalizing c with
  | nil => rfl
  | cons id ids ih =>
    rw [List.foldl_cons, ih (sound_removed h hc hp id)]
    unfold Content.removed
    rw [hfold _ _ (linksTo_subset ho hp hconfig) (sound_filter h hc hp (·.id != id)),
      rowsOf_onRows_other h hp ht fun hn => hconfig (hn ▸ htc)]

end GuardedConfig.Sql
