/-
  ConfigTemplate.Proofs.Proper — the tree of a TOML document is whole, and no table in it
  names a key twice.

  (1) `Data.Proper`, and the same of the items a document is built from.
  (2) `Entries.Proper.update`: replacing one entry keeps a table proper if it does so with
      what the entry holds. `put_keeps`, `under_keeps`, `openTable_keeps` and
      `openRow_keeps` go through every way in which a table changes.
  (3) `values_proper`: values are proper as they are read, by induction on the calls.
  (4) `read_proper`: so are whole documents.
-/
import ConfigTemplate.Toml.Document

namespace ConfigTemplate

/-! ## (1) Proper trees -/

/-- Every bracket is closed, and the keys of every table are texts, each of them once. -/
inductive Data.Proper : Data → Prop
  | null : Proper .null
  | bool (b : Bool) : Proper (.bool b)
  | number (n : Number) : Proper (.number n)
  | text (s : Option String) : Proper (.text s)
  | moment : Proper .moment
  | list {items : List Data} : (∀ d ∈ items, Proper d) → Proper (.list items true)
  | table {entries : List (String × Data)} : (entries.map (·.1)).Nodup → (∀ e ∈ entries, Proper e.2) →
      Proper (.table (entries.map fun e => (some e.1, e.2)) true)

theorem Data.wholeItems_eq (items : List Data) : wholeItems items = items.all whole := by
  induction items with
  | nil => rfl
  | cons d rest ih => rw [wholeItems, ih, List.all_cons]

theorem Data.wholeMembers_eq (members : List (Option String × Data)) :
    wholeMembers members = members.all fun m => whole m.2 := by
  induction members with
  | nil => rfl
  | cons m rest ih =>
    obtain ⟨key, d⟩ := m
    rw [wholeMembers, ih, List.all_cons]

theorem Data.Proper.whole {d : Data} (h : d.Proper) : d.whole = true := by
  induction h with
  | null | bool | number | text | moment => rfl
  | list _ ih =>
    rw [Data.whole, wholeItems_eq, Bool.and_true, List.all_eq_true]
    exact ih
  | table _ _ ih =>
    rw [Data.whole, wholeMembers_eq, Bool.and_true, List.all_map, List.all_eq_true]
    exact ih

namespace Toml

inductive Item.Proper : Item → Prop
  | leaf {d : Data} : d.Proper → Proper (.leaf d)
  | table {origin : Origin} {entries : List (String × Item)} : (entries.map (·.1)).Nodup →
      (∀ e ∈ entries, Proper e.2) → Proper (.table origin entries)
  | rows {tables : List (List (String × Item))} : (∀ es ∈ tables, (es.map (·.1)).Nodup) →
      (∀ es ∈ tables, ∀ e ∈ es, Proper e.2) → Proper (.rows tables)

structure Entries.Proper (es : Entries) : Prop where
  keys : (es.map (·.1)).Nodup
  items : ∀ e ∈ es, e.2.Proper

theorem Entries.proper_nil : Entries.Proper [] := ⟨by simp, by simp⟩

theorem Item.proper_table {origin : Origin} {es : Entries} : (Item.table origin es).Proper ↔ es.Proper := by
  constructor
  · intro h
    cases h with
    | table hkeys hitems => exact ⟨hkeys, hitems⟩
  · intro h
    exact .table h.keys h.items

theorem Item.proper_rows {tables : List Entries} : (Item.rows tables).Proper ↔ ∀ es ∈ tables, es.Proper := by
  constructor
  · intro h es hes
    cases h with
    | rows hkeys hitems => exact ⟨hkeys es hes, hitems es hes⟩
  · intro h
    exact .rows (fun es hes => (h es hes).keys) fun es hes => (h es hes).items

theorem dataEntries_eq (es : Entries) : dataEntries es = es.map fun e => (some e.1, e.2.data) := by
  induction es with
  | nil => rfl
  | cons e rest ih =>
    obtain ⟨key, item⟩ := e
    rw [dataEntries, ih, List.map_cons]

theorem dataRows_eq (tables : List Entries) : dataRows tables = tables.map fun es => .table (dataEntries es) true := by
  induction tables with
  | nil => rfl
  | cons es rest ih => rw [dataRows, ih, List.map_cons]

theorem proper_dataEntries {es : Entries} (hkeys : (es.map (·.1)).Nodup) (hitems : ∀ e ∈ es, e.2.data.Proper) :
    (Data.table (dataEntries es) true).Proper := by
  have hmap : dataEntries es = (es.map fun e => (e.1, e.2.data)).map fun e => (some e.1, e.2) := by
    rw [dataEntries_eq, List.map_map]
    rfl
  rw [hmap]
  refine .table ?_ ?_
  · rw [List.map_map]
    exact hkeys
  · intro e he
    obtain ⟨e', he', rfl⟩ := List.mem_map.mp he
    exact hitems e' he'

theorem Item.Proper.data {i : Item} (h : i.Proper) : i.data.Proper := by
  induction h with
  | leaf h => exact h
  | table hkeys _ ih =>
    rw [Item.data]
    exact proper_dataEntries hkeys ih
  | rows hkeys _ ih =>
    rw [Item.data, dataRows_eq]
    refine .list fun d hd => ?_
    obtain ⟨es, hes, rfl⟩ := List.mem_map.mp hd
    exact proper_dataEntries (hkeys es hes) (ih es hes)

theorem Entries.Proper.data {es : Entries} (h : es.Proper) : (Data.table (dataEntries es) true).Proper :=
  proper_dataEntries h.keys fun e he => (h.items e he).data

/-! ## (2) Building tables -/

/-- What the operation makes of a proper table is proper. -/
def Keeps (f : Entries → Option Entries) : Prop := ∀ es es', es.Proper → f es = some es' → es'.Proper

theorem Entries.Proper.cons {key : String} {i : Item} {es : Entries} (hi : i.Proper) (hkey : key ∉ es.map (·.1))
    (h : es.Proper) : Entries.Proper ((key, i) :: es) := by
  refine ⟨List.nodup_cons.mpr ⟨hkey, h.keys⟩, fun e he => ?_⟩
  rcases List.mem_cons.mp he with rfl | he
  · exact hi
  · exact h.items e he

theorem Entries.Proper.tail {e : String × Item} {es : Entries} (h : Entries.Proper (e :: es)) :
    e.1 ∉ es.map (·.1) ∧ e.2.Proper ∧ es.Proper :=
  ⟨(List.nodup_cons.mp h.keys).1, h.items e (by simp), (List.nodup_cons.mp h.keys).2,
    fun e' he' => h.items e' (List.mem_cons_of_mem _ he')⟩

/-- The keys are those that were there, and the one that is replaced. -/
theorem keys_update {key : String} {f : Option Item → Option Item} {es es' : Entries}
    (h : es.update key f = some es') : ∀ k ∈ es'.map (·.1), k = key ∨ k ∈ es.map (·.1) := by
  induction es generalizing es' with
  | nil =>
    obtain ⟨i, -, rfl⟩ := Option.map_eq_some_iff.mp h
    intro k hk
    exact Or.inl (by simpa using hk)
  | cons e rest ih =>
    obtain ⟨k', i⟩ := e
    rw [Entries.update] at h
    by_cases hk' : k' = key
    · rw [if_pos hk'] at h
      obtain ⟨j, -, rfl⟩ := Option.map_eq_some_iff.mp h
      intro k hk
      exact Or.inr hk
    · rw [if_neg hk'] at h
      obtain ⟨rest', hrest, rfl⟩ := Option.map_eq_some_iff.mp h
      intro k hk
      rcases List.mem_cons.mp hk with rfl | hk
      · exact Or.inr (by simp)
      · exact (ih hrest k hk).imp_right fun h => List.mem_cons_of_mem _ h

theorem Entries.Proper.update {key : String} {f : Option Item → Option Item} {es es' : Entries} (h : es.Proper)
    (hnew : ∀ j, f none = some j → j.Proper) (hold : ∀ i j, i.Proper → f (some i) = some j → j.Proper)
    (hupdate : es.update key f = some es') : es'.Proper := by
  induction es generalizing es' with
  | nil =>
    obtain ⟨j, hj, rfl⟩ := Option.map_eq_some_iff.mp hupdate
    exact .cons (hnew j hj) (by simp) proper_nil
  | cons e rest ih =>
    obtain ⟨k, i⟩ := e
    obtain ⟨hk, hi, hrest⟩ := h.tail
    rw [Entries.update] at hupdate
    by_cases hkey : k = key
    · rw [if_pos hkey] at hupdate
      obtain ⟨j, hj, rfl⟩ := Option.map_eq_some_iff.mp hupdate
      exact .cons (hold i j hi hj) hk hrest
    · rw [if_neg hkey] at hupdate
      obtain ⟨rest', hrest', rfl⟩ := Option.map_eq_some_iff.mp hupdate
      refine .cons hi (fun hmem => ?_) (ih hrest hrest')
      rcases keys_update hrest' k hmem with rfl | hmem
      · exact hkey rfl
      · exact hk hmem

theorem onLast_proper {f : Entries → Option Entries} (hf : Keeps f) {tables tables' : List Entries}
    (h : ∀ es ∈ tables, es.Proper) (hlast : onLast f tables = some tables') : ∀ es ∈ tables', es.Proper := by
  induction tables generalizing tables' with
  | nil => cases hlast
  | cons es rest ih =>
    cases rest with
    | nil =>
      obtain ⟨es', hes', rfl⟩ := Option.map_eq_some_iff.mp hlast
      intro es'' hmem
      obtain rfl : es'' = es' := by simpa using hmem
      exact hf es _ (h es (by simp)) hes'
    | cons next rest =>
      rw [onLast] at hlast
      · obtain ⟨rest', hrest', rfl⟩ := Option.map_eq_some_iff.mp hlast
        intro es'' hmem
        rcases List.mem_cons.mp hmem with rfl | hmem
        · exact h es'' (by simp)
        · exact ih (fun es hes => h es (List.mem_cons_of_mem _ hes)) hrest' es'' hmem
      · intro hnil
        cases hnil

theorem put_keeps {d : Data} (hd : d.Proper) (key : List String) : Keeps (put d key) := by
  induction key with
  | nil =>
    intro es es' _ h
    cases h
  | cons key rest ih =>
    intro es es' hes h
    cases rest with
    | nil =>
      refine hes.update (fun j hj => ?_) (fun i j _ hj => ?_) h
      · obtain rfl := Option.some.inj hj
        exact .leaf hd
      · cases hj
    | cons next rest =>
      refine hes.update (fun j hj => ?_) (fun i j hi hj => ?_) h
      · obtain ⟨inner, hinner, rfl⟩ := Option.map_eq_some_iff.mp hj
        exact Item.proper_table.mpr (ih [] inner Entries.proper_nil hinner)
      · -- A dotted key goes on below a table, or below the last row of an array of tables.
        cases i with
        | leaf _ => cases hj
        | table origin inner =>
          have hinner := Item.proper_table.mp hi
          cases origin with
          | header => cases hj
          | dotted =>
            obtain ⟨inner', hinner', rfl⟩ := Option.map_eq_some_iff.mp hj
            exact Item.proper_table.mpr (ih inner inner' hinner hinner')
          | parent =>
            by_cases hrest : rest = []
            · simp [hrest] at hj
            · simp only [hrest, if_false] at hj
              obtain ⟨inner', hinner', rfl⟩ := Option.map_eq_some_iff.mp hj
              exact Item.proper_table.mpr (ih inner inner' hinner hinner')
        | rows tables =>
          by_cases hrest : rest = []
          · simp [hrest] at hj
          · simp only [hrest, if_false] at hj
            obtain ⟨tables', htables', rfl⟩ := Option.map_eq_some_iff.mp hj
            exact Item.proper_rows.mpr (onLast_proper ih (Item.proper_rows.mp hi) htables')

theorem putAll_keeps {bs : List Binding} (h : ∀ b ∈ bs, b.2.Proper) : Keeps (putAll bs) := by
  induction bs with
  | nil =>
    intro es es' hes hput
    obtain rfl := Option.some.inj hput
    exact hes
  | cons b rest ih =>
    obtain ⟨key, d⟩ := b
    intro es es' hes hput
    obtain ⟨mid, hmid, hrest⟩ := Option.bind_eq_some_iff.mp hput
    exact ih (fun b hb => h b (List.mem_cons_of_mem _ hb)) mid es' (put_keeps (h (key, d) (by simp)) key es mid hes hmid) hrest

theorem under_keeps {f : Entries → Option Entries} (hf : Keeps f) (key : List String) : Keeps (under f key) := by
  induction key with
  | nil => exact hf
  | cons key rest ih =>
    intro es es' hes h
    refine hes.update (fun j hj => ?_) (fun i j hi hj => ?_) h
    · obtain ⟨inner, hinner, rfl⟩ := Option.map_eq_some_iff.mp hj
      exact Item.proper_table.mpr (ih [] inner Entries.proper_nil hinner)
    · cases i with
      | leaf _ => cases hj
      | table origin inner =>
        obtain ⟨inner', hinner', rfl⟩ := Option.map_eq_some_iff.mp hj
        exact Item.proper_table.mpr (ih inner inner' (Item.proper_table.mp hi) hinner')
      | rows tables =>
        obtain ⟨tables', htables', rfl⟩ := Option.map_eq_some_iff.mp hj
        exact Item.proper_rows.mpr (onLast_proper ih (Item.proper_rows.mp hi) htables')

theorem find?_proper {es : Entries} (h : es.Proper) {key : String} {i : Item} (hfind : es.find? key = some i) :
    i.Proper := by
  induction es with
  | nil => cases hfind
  | cons e rest ih =>
    obtain ⟨k, j⟩ := e
    rw [Entries.find?] at hfind
    by_cases hk : k = key
    · rw [if_pos hk] at hfind
      obtain rfl := Option.some.inj hfind
      exact h.tail.2.1
    · rw [if_neg hk] at hfind
      exact ih h.tail.2.2 hfind

theorem find?_eq_none {es : Entries} {key : String} (h : es.find? key = none) : key ∉ es.map (·.1) := by
  induction es with
  | nil => simp
  | cons e rest ih =>
    obtain ⟨k, j⟩ := e
    rw [Entries.find?] at h
    by_cases hk : k = key
    · rw [if_pos hk] at h
      cases h
    · rw [if_neg hk] at h
      intro hmem
      rcases List.mem_cons.mp hmem with hmem | hmem
      · exact hk hmem.symm
      · exact ih h hmem

/-- The entries without the key's. -/
theorem erase_proper {es : Entries} (h : es.Proper) (key : String) :
    (es.erase key).Proper ∧ key ∉ (es.erase key).map (·.1) ∧ ∀ k ∈ (es.erase key).map (·.1), k ∈ es.map (·.1) := by
  induction es with
  | nil => exact ⟨h, by simp [Entries.erase], by simp [Entries.erase]⟩
  | cons e rest ih =>
    obtain ⟨k, j⟩ := e
    obtain ⟨hk, hj, hrest⟩ := h.tail
    rw [Entries.erase]
    by_cases hkey : k = key
    · rw [if_pos hkey]
      exact ⟨hrest, hkey ▸ hk, fun k' hk' => List.mem_cons_of_mem _ hk'⟩
    · rw [if_neg hkey]
      obtain ⟨hproper, habsent, hsub⟩ := ih hrest
      refine ⟨.cons hj (fun hmem => hk (hsub k hmem)) hproper, ?_, ?_⟩
      · intro hmem
        rcases List.mem_cons.mp hmem with hmem | hmem
        · exact hkey hmem.symm
        · exact habsent hmem
      · intro k' hk'
        rcases List.mem_cons.mp hk' with rfl | hk'
        · simp
        · exact List.mem_cons_of_mem _ (hsub k' hk')

theorem Entries.Proper.snoc {es : Entries} (h : es.Proper) {key : String} (hkey : key ∉ es.map (·.1)) {i : Item}
    (hi : i.Proper) : Entries.Proper (es ++ [(key, i)]) := by
  refine ⟨?_, fun e he => ?_⟩
  · rw [List.map_append, List.nodup_append]
    refine ⟨h.keys, by simp, fun a ha b hb => ?_⟩
    obtain rfl : b = key := by simpa using hb
    rintro rfl
    exact hkey ha
  · rcases List.mem_append.mp he with he | he
    · exact h.items e he
    · obtain rfl : e = (key, i) := by simpa using he
      exact hi

theorem openTable_keeps {bs : List Binding} (h : ∀ b ∈ bs, b.2.Proper) (key : String) : Keeps (openTable bs key) := by
  intro es es' hes hopen
  rw [openTable] at hopen
  split at hopen
  · rename_i hfind
    obtain ⟨inner, hinner, rfl⟩ := Option.map_eq_some_iff.mp hopen
    have hproper := putAll_keeps h [] inner Entries.proper_nil hinner
    exact hes.snoc (find?_eq_none hfind) (Item.proper_table.mpr hproper)
  · rename_i known hfind
    obtain ⟨inner, hinner, rfl⟩ := Option.map_eq_some_iff.mp hopen
    have hknown := Item.proper_table.mp (find?_proper hes hfind)
    have hproper := putAll_keeps h known inner hknown hinner
    obtain ⟨herased, habsent, -⟩ := erase_proper hes key
    exact herased.snoc habsent (Item.proper_table.mpr hproper)
  · cases hopen

theorem openRow_keeps {bs : List Binding} (h : ∀ b ∈ bs, b.2.Proper) (key : String) : Keeps (openRow bs key) := by
  intro es es' hes hopen
  obtain ⟨row, hrow, hupdate⟩ := Option.bind_eq_some_iff.mp hopen
  have hproper := putAll_keeps h [] row Entries.proper_nil hrow
  refine hes.update (fun j hj => ?_) (fun i j hi hj => ?_) hupdate
  · obtain rfl := Option.some.inj hj
    exact Item.proper_rows.mpr (by simpa using hproper)
  · cases i with
    | leaf _ => cases hj
    | table _ _ => cases hj
    | rows tables =>
      obtain rfl := Option.some.inj hj
      refine Item.proper_rows.mpr fun es hes => ?_
      rcases List.mem_append.mp hes with hes | hes
      · exact Item.proper_rows.mp hi es hes
      · obtain rfl : es = row := by simpa using hes
        exact hproper

/-! ## (3) Values -/

theorem scanScalar_proper {cs rest : List Char} {d : Data} (h : scanScalar cs = some (d, rest)) : d.Proper := by
  unfold scanScalar at h
  split at h
  · obtain ⟨rfl, -⟩ := Prod.mk.inj (Option.some.inj h)
    exact .bool true
  · obtain ⟨rfl, -⟩ := Prod.mk.inj (Option.some.inj h)
    exact .bool false
  · split at h
    · obtain ⟨_, -, heq⟩ := Option.map_eq_some_iff.mp h
      obtain ⟨rfl, -⟩ := Prod.mk.inj heq
      exact .text _
    · split at h
      · obtain ⟨rfl, -⟩ := Prod.mk.inj (Option.some.inj h)
        exact .moment
      · obtain ⟨_, -, heq⟩ := Option.map_eq_some_iff.mp h
        obtain ⟨rfl, -⟩ := Prod.mk.inj heq
        exact .number _
  · cases h

section Values

/-- What is read as a value with at most `n` calls below each other is proper. -/
def ValuesProper (n : Nat) : Prop := ∀ room cs d rest, value n room cs = some (d, rest) → d.Proper

def ItemsProper (n : Nat) : Prop := ∀ room cs ds rest, items n room cs = some (ds, rest) → ∀ d ∈ ds, d.Proper

def PairsProper (n : Nat) : Prop :=
  ∀ room es cs es' rest, es.Proper → pairs n room es cs = some (es', rest) → es'.Proper

variable {n : Nat}

theorem value_proper (hitems : ItemsProper n) (hpairs : PairsProper n) : ValuesProper (n + 1) := by
  intro room cs d rest h
  unfold value at h
  split at h
  · cases h
  · rename_i hn
    cases hn
    split at h
    · cases h
    · obtain ⟨⟨ds, rest'⟩, hds, heq⟩ := Option.map_eq_some_iff.mp h
      obtain ⟨rfl, -⟩ := Prod.mk.inj heq
      exact .list (hitems _ _ ds rest' hds)
  · rename_i hn
    cases hn
    split at h
    · cases h
    · obtain ⟨rfl, -⟩ := Prod.mk.inj (Option.some.inj h)
      exact Entries.proper_nil.data
    · obtain ⟨⟨es, rest'⟩, hes, heq⟩ := Option.map_eq_some_iff.mp h
      obtain ⟨rfl, -⟩ := Prod.mk.inj heq
      exact (hpairs _ [] _ es rest' Entries.proper_nil hes).data
  · exact scanScalar_proper h

theorem items_proper (hvalue : ValuesProper n) (hitems : ItemsProper n) : ItemsProper (n + 1) := by
  intro room cs ds rest h
  rw [items] at h
  split at h
  · obtain ⟨rfl, -⟩ := Prod.mk.inj (Option.some.inj h)
    simp
  · obtain ⟨⟨d, rest'⟩, hd, h⟩ := Option.bind_eq_some_iff.mp h
    have hd := hvalue room _ d rest' hd
    simp only at h
    split at h
    · obtain ⟨⟨ds', rest''⟩, hds', h⟩ := Option.bind_eq_some_iff.mp h
      obtain ⟨rfl, -⟩ := Prod.mk.inj (Option.some.inj h)
      exact List.forall_mem_cons.mpr ⟨hd, hitems _ _ ds' rest'' hds'⟩
    · obtain ⟨rfl, -⟩ := Prod.mk.inj (Option.some.inj h)
      exact List.forall_mem_singleton.mpr hd
    · cases h

theorem pairs_proper (hvalue : ValuesProper n) (hpairs : PairsProper n) : PairsProper (n + 1) := by
  intro room es cs es' rest hes h
  rw [pairs] at h
  obtain ⟨⟨key, rest₁⟩, -, h⟩ := Option.bind_eq_some_iff.mp h
  obtain ⟨rest₂, -, h⟩ := Option.bind_eq_some_iff.mp h
  obtain ⟨⟨d, rest₃⟩, hd, h⟩ := Option.bind_eq_some_iff.mp h
  obtain ⟨mid, hput, h⟩ := Option.bind_eq_some_iff.mp h
  have hmid := put_keeps (hvalue room _ d rest₃ hd) key es mid hes hput
  split at h
  · exact hpairs room mid _ es' rest hmid h
  · obtain ⟨rfl, -⟩ := Prod.mk.inj (Option.some.inj h)
    exact hmid
  · cases h

end Values

/-- Values, the items of an array and the bindings of a table in line, all at once: each is read by fewer calls. -/
theorem values_proper (n : Nat) : ValuesProper n ∧ ItemsProper n ∧ PairsProper n := by
  induction n with
  | zero => simp [ValuesProper, ItemsProper, PairsProper, value, items, pairs]
  | succ n ih =>
    obtain ⟨hvalue, hitems, hpairs⟩ := ih
    exact ⟨value_proper hitems hpairs, items_proper hvalue hitems, pairs_proper hvalue hpairs⟩

/-! ## (4) Documents -/

/-- A binding of a document has a proper value; a header has none. -/
def Statement.Proper : Statement → Prop
  | .binding _ d => d.Proper
  | .table _ | .row _ => True

theorem scanStatement_proper {cs rest : List Char} {s : Statement} (h : scanStatement cs = some (s, rest)) :
    s.Proper := by
  unfold scanStatement at h
  split at h
  · obtain ⟨⟨key, rest₁⟩, -, h⟩ := Option.bind_eq_some_iff.mp h
    obtain ⟨rest₂, -, h⟩ := Option.bind_eq_some_iff.mp h
    obtain ⟨rest₃, -, h⟩ := Option.bind_eq_some_iff.mp h
    obtain ⟨rfl, -⟩ := Prod.mk.inj (Option.some.inj h)
    trivial
  · obtain ⟨⟨key, rest₁⟩, -, h⟩ := Option.bind_eq_some_iff.mp h
    obtain ⟨rest₂, -, h⟩ := Option.bind_eq_some_iff.mp h
    obtain ⟨rfl, -⟩ := Prod.mk.inj (Option.some.inj h)
    trivial
  · obtain ⟨⟨key, rest₁⟩, -, h⟩ := Option.bind_eq_some_iff.mp h
    obtain ⟨rest₂, -, h⟩ := Option.bind_eq_some_iff.mp h
    obtain ⟨⟨d, rest₃⟩, hvalue, h⟩ := Option.bind_eq_some_iff.mp h
    obtain ⟨rfl, -⟩ := Prod.mk.inj (Option.some.inj h)
    exact (values_proper _).1 _ _ d rest₃ hvalue

theorem statements_proper {n : Nat} {cs : List Char} {ss : List Statement} (h : statements n cs = some ss) :
    ∀ s ∈ ss, s.Proper := by
  induction n generalizing cs ss with
  | zero => cases h
  | succ n ih =>
    rw [statements] at h
    split at h
    · obtain rfl := Option.some.inj h
      simp
    · exact ih h
    · obtain ⟨rest, -, h⟩ := Option.bind_eq_some_iff.mp h
      exact ih h
    · obtain ⟨⟨s, rest₁⟩, hs, h⟩ := Option.bind_eq_some_iff.mp h
      obtain ⟨rest₂, -, h⟩ := Option.bind_eq_some_iff.mp h
      obtain ⟨more, hmore, h⟩ := Option.bind_eq_some_iff.mp h
      obtain rfl := Option.some.inj h
      intro s' hs'
      rcases List.mem_cons.mp hs' with rfl | hs'
      · exact scanStatement_proper hs
      · exact ih hmore s' hs'

theorem bindings_proper {ss : List Statement} (h : ∀ s ∈ ss, s.Proper) : ∀ b ∈ (bindings ss).1, b.2.Proper := by
  induction ss with
  | nil => simp [bindings]
  | cons s rest ih =>
    cases s with
    | binding key d =>
      intro b hb
      rw [bindings] at hb
      rcases List.mem_cons.mp hb with rfl | hb
      · exact h (.binding key d) (by simp)
      · exact ih (fun s hs => h s (List.mem_cons_of_mem _ hs)) b hb
    | table key => simp [bindings]
    | row key => simp [bindings]

theorem openAt_keeps {create : String → Entries → Option Entries} (h : ∀ key, Keeps (create key)) (key : List String) :
    Keeps (openAt create key) := by
  intro es es' hes hopen
  rw [openAt] at hopen
  split at hopen
  · cases hopen
  · exact under_keeps (h _) _ es es' hes hopen

theorem buildSections_keeps {ss : List Statement} (h : ∀ s ∈ ss, s.Proper) : Keeps (buildSections ss) := by
  induction ss with
  | nil =>
    intro es es' hes hbuild
    obtain rfl := Option.some.inj hbuild
    exact hes
  | cons s rest ih =>
    have hrest : ∀ s ∈ rest, s.Proper := fun s hs => h s (List.mem_cons_of_mem _ hs)
    intro es es' hes hbuild
    cases s with
    | binding key d => exact ih hrest es es' hes hbuild
    | table key =>
      obtain ⟨mid, hmid, hbuild⟩ := Option.bind_eq_some_iff.mp hbuild
      have hmid := openAt_keeps (openTable_keeps (bindings_proper hrest)) key es mid hes hmid
      exact ih hrest mid es' hmid hbuild
    | row key =>
      obtain ⟨mid, hmid, hbuild⟩ := Option.bind_eq_some_iff.mp hbuild
      have hmid := openAt_keeps (openRow_keeps (bindings_proper hrest)) key es mid hes hmid
      exact ih hrest mid es' hmid hbuild

/-- A document is a table, and proper. -/
theorem read_proper {text : String} {d : Data} (h : read text = some d) :
    d.Proper ∧ ∃ entries : List (String × Data), d = .table (entries.map fun e => (some e.1, e.2)) true := by
  obtain ⟨ss, hss, h⟩ := Option.bind_eq_some_iff.mp h
  obtain ⟨es, hes, h⟩ := Option.bind_eq_some_iff.mp h
  obtain rfl := Option.some.inj h
  have hproper := statements_proper hss
  obtain ⟨top, htop, hsections⟩ := Option.bind_eq_some_iff.mp hes
  have htop := putAll_keeps (bindings_proper hproper) [] top Entries.proper_nil htop
  refine ⟨(buildSections_keeps hproper top es htop hsections).data, es.map fun e => (e.1, e.2.data), ?_⟩
  rw [dataEntries_eq, List.map_map]
  rfl

end Toml

end ConfigTemplate
