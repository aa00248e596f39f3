/-
  FieldForest.Proofs.Value.Keys — dictionaries have one entry for a key.

  A dictionary is kept as its entries, a field as its options, so neither shows that a key
  stands there once. `WellKeyed` says it: of every dictionary inside a value no two keys are
  equal, and of every field inside no two options have one name, the flag counted with them.
-/
import FieldForest.Value.Equality

namespace FieldForest

/-- No two of the entries have equal keys. -/
def KeysDiffer (entries : List (Value × Value)) : Prop := entries.Pairwise fun a b => a.1.same b.1 = false

/-- No two of the options have one name, and none has that of the flag. -/
def NamesDiffer (options : List (Text × Value)) : Prop := (Field.flagKey :: options.map Prod.fst).Nodup

mutual

def Value.WellKeyed : Value → Prop
  | .list elements => Value.AllWellKeyed elements
  | .tuple elements => Value.AllWellKeyed elements
  | .dict entries => KeysDiffer entries ∧ Value.EntriesWellKeyed entries
  | .fixed entries => KeysDiffer entries ∧ Value.EntriesWellKeyed entries
  | .item i => i.WellKeyed
  | .nested body => body.WellKeyed
  | .field f => f.WellKeyed
  | _ => True

def Value.AllWellKeyed : List Value → Prop
  | [] => True
  | x :: xs => x.WellKeyed ∧ Value.AllWellKeyed xs

def Value.EntriesWellKeyed : List (Value × Value) → Prop
  | [] => True
  | (k, v) :: rest => (k.WellKeyed ∧ v.WellKeyed) ∧ Value.EntriesWellKeyed rest

def Value.OptionsWellKeyed : List (Text × Value) → Prop
  | [] => True
  | (_, v) :: rest => v.WellKeyed ∧ Value.OptionsWellKeyed rest

def Item.WellKeyed : Item → Prop
  | .statement _ args => Value.AllWellKeyed args
  | .block items => Item.AllWellKeyed items

def Item.AllWellKeyed : List Item → Prop
  | [] => True
  | i :: is => i.WellKeyed ∧ Item.AllWellKeyed is

def Declaration.WellKeyed : Declaration → Prop
  | .single i => i.WellKeyed
  | .sequence is => Item.AllWellKeyed is

def Field.WellKeyed : Field → Prop
  | .mk _ _ leading _ trailing fields =>
    NamesDiffer (leading ++ trailing) ∧ Value.OptionsWellKeyed leading ∧ Value.OptionsWellKeyed trailing ∧
      Field.AllWellKeyed fields

def Field.AllWellKeyed : List Field → Prop
  | [] => True
  | f :: fs => f.WellKeyed ∧ Field.AllWellKeyed fs

end

theorem Value.allWellKeyed_iff {xs : List Value} : AllWellKeyed xs ↔ ∀ x ∈ xs, x.WellKeyed := by
  induction xs with
  | nil => simp [AllWellKeyed]
  | cons x xs ih => rw [AllWellKeyed, ih, List.forall_mem_cons]

theorem Value.entriesWellKeyed_iff {entries : List (Value × Value)} :
    EntriesWellKeyed entries ↔ ∀ e ∈ entries, e.1.WellKeyed ∧ e.2.WellKeyed := by
  induction entries with
  | nil => simp [EntriesWellKeyed]
  | cons e rest ih => rw [EntriesWellKeyed, ih, List.forall_mem_cons]

theorem Value.optionsWellKeyed_iff {options : List (Text × Value)} :
    OptionsWellKeyed options ↔ ∀ o ∈ options, o.2.WellKeyed := by
  induction options with
  | nil => simp [OptionsWellKeyed]
  | cons o rest ih => rw [OptionsWellKeyed, ih, List.forall_mem_cons]

theorem Item.allWellKeyed_iff {is : List Item} : AllWellKeyed is ↔ ∀ i ∈ is, i.WellKeyed := by
  induction is with
  | nil => simp [AllWellKeyed]
  | cons i is ih => rw [AllWellKeyed, ih, List.forall_mem_cons]

theorem Field.allWellKeyed_iff {fs : List Field} : AllWellKeyed fs ↔ ∀ f ∈ fs, f.WellKeyed := by
  induction fs with
  | nil => simp [AllWellKeyed]
  | cons f fs ih => rw [AllWellKeyed, ih, List.forall_mem_cons]

namespace Field.WellKeyed

variable {f : Field}

theorem namesDiffer (h : f.WellKeyed) : NamesDiffer f.settings := by
  cases f
  exact h.1

theorem fields (h : f.WellKeyed) : ∀ g ∈ f.fields, g.WellKeyed := by
  cases f
  exact allWellKeyed_iff.mp h.2.2.2

end Field.WellKeyed

theorem NamesDiffer.ne_flagKey {options : List (Text × Value)} (h : NamesDiffer options) {o : Text × Value}
    (ho : o ∈ options) : o.1 ≠ Field.flagKey :=
  fun e => (List.nodup_cons.mp h).1 (e ▸ List.mem_map_of_mem ho)

end FieldForest
