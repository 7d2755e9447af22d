import Mathlib.Data.String.Basic
import Mathlib.Tactic.Lemma
import Mathlib.Tactic.TypeStar

/-!
# TOML documents

Values of a TOML document, with tables whose keys ascend, so that a table is determined by what it
has under each key, and the interface of a library that parses and prints such documents.
-/

/-- A value; the written form stands for a float, a date or a time. -/
inductive TomlValue where
  | boolean (value : Bool)
  | integer (value : Int)
  | text (value : String)
  | other (written : String)
  | array (items : List TomlValue)
  | table (fields : List (String × TomlValue))

namespace TomlValue

mutual

/-- The keys of every table ascend. -/
def WellFormed : TomlValue → Prop
  | .boolean _ => True
  | .integer _ => True
  | .text _ => True
  | .other _ => True
  | .array items => ItemsWellFormed items
  | .table fields => FieldsWellFormed fields

def ItemsWellFormed : List TomlValue → Prop
  | [] => True
  | item :: items => item.WellFormed ∧ ItemsWellFormed items

def FieldsWellFormed : List (String × TomlValue) → Prop
  | [] => True
  | (key, value) :: fields =>
    value.WellFormed ∧ (∀ f ∈ fields, key < f.1) ∧ FieldsWellFormed fields

end

/-- An array is well formed when its items are. -/
lemma itemsWellFormed_iff {items : List TomlValue} :
    ItemsWellFormed items ↔ ∀ item ∈ items, item.WellFormed := by
  induction items with
  | nil => simp [ItemsWellFormed]
  | cons item items ih => simp [ItemsWellFormed, ih]

/-- A table is well formed when its keys ascend and its values are well formed. -/
lemma fieldsWellFormed_iff {fields : List (String × TomlValue)} :
    FieldsWellFormed fields ↔
      fields.Pairwise (fun f g => f.1 < g.1) ∧ ∀ f ∈ fields, f.2.WellFormed := by
  induction fields with
  | nil => simp [FieldsWellFormed]
  | cons f fields ih =>
    obtain ⟨key, value⟩ := f
    simp only [FieldsWellFormed, ih, List.pairwise_cons, List.forall_mem_cons]
    tauto

end TomlValue

namespace TomlFields

variable {α : Type*}

/-- Put a value under a key, in the place of the one that is there. -/
def insertOrAssign (key : String) (value : α) : List (String × α) → List (String × α)
  | [] => [(key, value)]
  | f :: fields =>
    if key < f.1 then (key, value) :: f :: fields
    else if f.1 = key then (key, value) :: fields
    else f :: insertOrAssign key value fields

/-- Take a key out. -/
def erase (key : String) (fields : List (String × α)) : List (String × α) :=
  fields.filter fun f => f.1 ≠ key

variable {key : String} {value : α} {fields : List (String × α)}

/-- A field of the new table is the new one or an old one. -/
lemma mem_insertOrAssign {f : String × α} (h : f ∈ insertOrAssign key value fields) :
    f = (key, value) ∨ f ∈ fields := by
  induction fields with
  | nil => exact .inl (List.mem_singleton.1 h)
  | cons g fields ih =>
    rw [insertOrAssign] at h
    split_ifs at h with hlt heq
    · exact List.mem_cons.1 h
    · exact (List.mem_cons.1 h).imp_right (.tail _)
    · obtain rfl | h := List.mem_cons.1 h
      · exact .inr (.head _)
      · exact (ih h).imp_right (.tail _)

/-- The keys still ascend. -/
lemma insertOrAssign_pairwise (h : fields.Pairwise fun f g => f.1 < g.1) :
    (insertOrAssign key value fields).Pairwise fun f g => f.1 < g.1 := by
  induction fields with
  | nil => exact List.pairwise_singleton _ _
  | cons g fields ih =>
    obtain ⟨hg, hfields⟩ := List.pairwise_cons.1 h
    rw [insertOrAssign]
    split_ifs with hlt heq
    · refine List.pairwise_cons.2 ⟨fun f hf => ?_, h⟩
      obtain rfl | hf := List.mem_cons.1 hf
      · exact hlt
      · exact hlt.trans (hg f hf)
    · exact List.pairwise_cons.2 ⟨fun f hf => heq ▸ hg f hf, hfields⟩
    · refine List.pairwise_cons.2 ⟨fun f hf => ?_, ih hfields⟩
      obtain rfl | hf := mem_insertOrAssign hf
      · exact lt_of_le_of_ne (not_lt.1 hlt) heq
      · exact hg f hf

/-- What is found is there. -/
lemma mem_of_lookup (h : fields.lookup key = some value) : (key, value) ∈ fields := by
  obtain ⟨before, after, rfl, -⟩ := List.lookup_eq_some_iff.1 h
  exact List.mem_append_right _ (.head _)

/-- The new value is found. -/
lemma lookup_insertOrAssign : (insertOrAssign key value fields).lookup key = some value := by
  induction fields with
  | nil => simp [insertOrAssign]
  | cons f fields ih =>
    obtain ⟨k, v⟩ := f
    rw [insertOrAssign]
    split_ifs with hlt heq
    · simp
    · simp
    · rw [List.lookup_cons, beq_false_of_ne (Ne.symm heq)]
      exact ih

/-- Another key is found as before. -/
lemma lookup_insertOrAssign_of_ne {other : String} (h : other ≠ key) :
    (insertOrAssign key value fields).lookup other = fields.lookup other := by
  induction fields with
  | nil => simp [insertOrAssign, List.lookup_cons, beq_false_of_ne h]
  | cons f fields ih =>
    obtain ⟨k, v⟩ := f
    rw [insertOrAssign]
    split_ifs with hlt heq
    · rw [List.lookup_cons, beq_false_of_ne h]
    · obtain rfl : k = key := heq
      rw [List.lookup_cons, List.lookup_cons, beq_false_of_ne h]
    · rw [List.lookup_cons, List.lookup_cons, ih]

/-- Another key is found as before. -/
lemma lookup_erase_of_ne {other : String} (h : other ≠ key) :
    (erase key fields).lookup other = fields.lookup other := by
  induction fields with
  | nil => rfl
  | cons f fields ih =>
    obtain ⟨k, v⟩ := f
    by_cases hk : k = key
    · subst hk
      rw [List.lookup_cons, beq_false_of_ne h, erase, List.filter_cons_of_neg (by simp)]
      exact ih
    · rw [erase, List.filter_cons_of_pos (by simpa using hk), List.lookup_cons, List.lookup_cons]
      exact congrArg (fun found => match other == k with | true => some v | false => found) ih

/-- What was erased is not found. -/
lemma lookup_erase : (erase key fields).lookup key = none := by
  apply List.lookup_eq_none_iff.2
  intro f hf
  exact bne_iff_ne.2 (Ne.symm (of_decide_eq_true (List.mem_filter.1 hf).2))

/-- What was assigned is erased without a trace. -/
lemma erase_insertOrAssign : erase key (insertOrAssign key value fields) = erase key fields := by
  induction fields with
  | nil => simp [insertOrAssign, erase]
  | cons f fields ih =>
    rw [insertOrAssign]
    split_ifs with hlt heq
    · simp [erase]
    · simp [erase, heq]
    · simp only [erase] at ih ⊢
      rw [List.filter_cons_of_pos (by simpa using heq), List.filter_cons_of_pos (by simpa using heq),
        ih]

/-- A new key is one field more. -/
lemma insertOrAssign_perm (h : key ∉ fields.map (·.1)) :
    (insertOrAssign key value fields).Perm ((key, value) :: fields) := by
  induction fields with
  | nil => exact .refl _
  | cons f fields ih =>
    rw [List.map_cons, List.mem_cons, not_or] at h
    rw [insertOrAssign, if_neg (Ne.symm h.1)]
    split
    · exact .refl _
    · exact ((ih h.2).cons f).trans (.swap _ _ _)

end TomlFields

/-- A well-formed value. -/
@[ext]
structure TomlNode where
  value : TomlValue
  wellFormed : value.WellFormed

/-- A well-formed table. -/
@[ext]
structure TomlTable where
  fields : List (String × TomlValue)
  wellFormed : TomlValue.FieldsWellFormed fields

namespace TomlNode

def boolean (value : Bool) : TomlNode := ⟨.boolean value, trivial⟩

def integer (value : Int) : TomlNode := ⟨.integer value, trivial⟩

def text (value : String) : TomlNode := ⟨.text value, trivial⟩

def array (items : List TomlNode) : TomlNode where
  value := .array (items.map value)
  wellFormed := TomlValue.itemsWellFormed_iff.2 fun item hitem => by
    obtain ⟨node, -, rfl⟩ := List.mem_map.1 hitem
    exact node.wellFormed

def table (t : TomlTable) : TomlNode := ⟨.table t.fields, t.wellFormed⟩

def asTable : TomlNode → Option TomlTable
  | ⟨.table fields, h⟩ => some ⟨fields, h⟩
  | _ => none

/-- A table is one. -/
@[simp] lemma asTable_table {t : TomlTable} : (table t).asTable = some t := rfl

end TomlNode

namespace TomlTable

def empty : TomlTable := ⟨[], trivial⟩

def isEmpty (t : TomlTable) : Bool := t.fields.isEmpty

def get (t : TomlTable) (key : String) : Option TomlNode :=
  (t.fields.lookup key).pmap TomlNode.mk fun value h =>
    (TomlValue.fieldsWellFormed_iff.1 t.wellFormed).2 (key, value) (TomlFields.mem_of_lookup h)

def insertOrAssign (t : TomlTable) (key : String) (node : TomlNode) : TomlTable where
  fields := TomlFields.insertOrAssign key node.value t.fields
  wellFormed := by
    obtain ⟨hkeys, hvalues⟩ := TomlValue.fieldsWellFormed_iff.1 t.wellFormed
    refine TomlValue.fieldsWellFormed_iff.2 ⟨TomlFields.insertOrAssign_pairwise hkeys, fun f hf => ?_⟩
    obtain rfl | hf := TomlFields.mem_insertOrAssign hf
    · exact node.wellFormed
    · exact hvalues f hf

def erase (t : TomlTable) (key : String) : TomlTable where
  fields := TomlFields.erase key t.fields
  wellFormed := by
    obtain ⟨hkeys, hvalues⟩ := TomlValue.fieldsWellFormed_iff.1 t.wellFormed
    exact TomlValue.fieldsWellFormed_iff.2
      ⟨hkeys.filter _, fun f hf => hvalues f (List.mem_of_mem_filter hf)⟩

/-- The fields of a table with their nodes. -/
def entries (t : TomlTable) : List (String × TomlNode) :=
  t.fields.pmap (fun field h => (field.1, ⟨field.2, h⟩)) (TomlValue.fieldsWellFormed_iff.1 t.wellFormed).2

variable {t : TomlTable} {key other : String} {node : TomlNode}

/-- Nothing is in the empty table. -/
@[simp] lemma get_empty : empty.get key = none := rfl

/-- What a table has under a key depends on its fields there only. -/
lemma get_congr {t' : TomlTable} (h : t.fields.lookup key = t'.fields.lookup other) :
    t.get key = t'.get other := by
  unfold get
  congr 1

/-- The new node is got. -/
@[simp] lemma get_insertOrAssign : (t.insertOrAssign key node).get key = some node := by
  unfold get
  simp [insertOrAssign, TomlFields.lookup_insertOrAssign]

/-- Another key gets what it got. -/
lemma get_insertOrAssign_of_ne (h : other ≠ key) :
    (t.insertOrAssign key node).get other = t.get other :=
  get_congr (TomlFields.lookup_insertOrAssign_of_ne h)

/-- What was erased is not got. -/
@[simp] lemma get_erase : (t.erase key).get key = none := by
  have hlookup : (t.erase key).fields.lookup key = empty.fields.lookup key := TomlFields.lookup_erase
  exact get_congr hlookup

/-- Another key gets what it got. -/
lemma get_erase_of_ne (h : other ≠ key) : (t.erase key).get other = t.get other :=
  get_congr (TomlFields.lookup_erase_of_ne h)

/-- What was assigned is erased without a trace. -/
@[simp] lemma erase_insertOrAssign : (t.insertOrAssign key node).erase key = t.erase key :=
  TomlTable.ext TomlFields.erase_insertOrAssign

/-- The entries are the fields. -/
lemma map_entries (t : TomlTable) :
    t.entries.map (fun entry => (entry.1, entry.2.value)) = t.fields := by
  rw [entries, List.map_pmap]
  exact List.pmap_eq_self.2 fun _ _ => rfl

/-- The keys of a table ascend. -/
lemma entries_ascend (t : TomlTable) : t.entries.Pairwise (·.1 < ·.1) := by
  have hfields := (TomlValue.fieldsWellFormed_iff.1 t.wellFormed).1
  rwa [← map_entries, List.pairwise_map] at hfields

end TomlTable

/-- A TOML library over the contents of files. `sections` is what a content has at its top level, also
    when a syntax error elsewhere keeps it from being parsed. -/
structure TomlFormat (Content : Type*) where
  parse : Content → Option TomlTable
  print : TomlTable → Content
  sections : Content → String → Option TomlNode
  parse_print : ∀ t, parse (print t) = some t
  sections_of_parse : ∀ {c t}, parse c = some t → sections c = t.get

/-- What was printed is parsed with its sections. -/
lemma TomlFormat.sections_print {Content : Type*} (format : TomlFormat Content) (t : TomlTable) :
    format.sections (format.print t) = t.get :=
  format.sections_of_parse (format.parse_print t)
