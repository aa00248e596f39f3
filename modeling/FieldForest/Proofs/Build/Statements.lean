/-
  FieldForest.Proofs.Build.Statements — a declaration as the statements of its levels.

  Blocks only group. What counts of a declaration is the sequence of its statements, those of
  its blocks in place; a statement with a body has the statements of that body one level
  further down. A build is then one loop over the statements of a level.

  Proved:
  - `Statement.induction`: what holds of a statement whenever it holds of the statements of its
    body holds of every statement.
  - `buildAll_eq_buildEach` / `bodyFields_eq_buildEach`: items are built as their statements are,
    one after the other, events and faults included.
  - `topFields_of_statements?` / `topFields_of_no_statements`: so is a value that is a
    declaration, and a value that is none has no fields.
  - `buildForest_eq_ok_iff`: a forest is what the loop gives for the statements of a declaration.
-/
import FieldForest.Forest.Build

namespace FieldForest

/-- A keyword with its arguments. -/
structure Statement where
  keyword : Text
  args : List Value

namespace Item

mutual

/-- The statements of an item in order, those of blocks in place. -/
def statements : Item → List Statement
  | .statement keyword args => [⟨keyword, args⟩]
  | .block items => allStatements items

def allStatements : List Item → List Statement
  | [] => []
  | i :: is => statements i ++ allStatements is

end

mutual

theorem sizeOf_le_of_mem_statements {s : Statement} : ∀ {i : Item}, s ∈ i.statements → sizeOf s ≤ sizeOf i
  | .statement keyword args, h => by
    simp only [statements, List.mem_singleton] at h
    subst h
    simp
  | .block items, h => by
    have := sizeOf_le_of_mem_allStatements (show s ∈ allStatements items by simpa only [statements] using h)
    simp only [Item.block.sizeOf_spec]
    omega

theorem sizeOf_le_of_mem_allStatements {s : Statement} :
    ∀ {items : List Item}, s ∈ allStatements items → sizeOf s ≤ sizeOf items
  | [], h => by simp [allStatements] at h
  | i :: is, h => by
    simp only [allStatements, List.mem_append] at h
    simp only [List.cons.sizeOf_spec]
    rcases h with h | h
    · have := sizeOf_le_of_mem_statements h; omega
    · have := sizeOf_le_of_mem_allStatements h; omega

end

end Item

def Declaration.statements (d : Declaration) : List Statement := Item.allStatements d.items

theorem Declaration.sizeOf_lt_of_mem_statements {s : Statement} {d : Declaration} (h : s ∈ d.statements) :
    sizeOf s < sizeOf d := by
  cases d with
  | single i =>
    have := Item.sizeOf_le_of_mem_statements
      (show s ∈ i.statements by simpa [statements, items, Item.allStatements] using h)
    simp only [Declaration.single.sizeOf_spec]
    omega
  | sequence is =>
    have := Item.sizeOf_le_of_mem_allStatements (show s ∈ Item.allStatements is from h)
    simp only [Declaration.sequence.sizeOf_spec]
    omega

namespace Statement

def item (s : Statement) : Item := .statement s.keyword s.args

/-- The statements of the body, one level further down. -/
def body : Statement → List Statement
  | ⟨_, [_, _, .nested body]⟩ => body.statements
  | _ => []

theorem sizeOf_lt_of_mem_body {s t : Statement} (h : t ∈ s.body) : sizeOf t < sizeOf s := by
  unfold body at h
  split at h
  · have := Declaration.sizeOf_lt_of_mem_statements h
    simp only [Statement.mk.sizeOf_spec, List.cons.sizeOf_spec, Value.nested.sizeOf_spec]
    omega
  · cases h

/-- Induction over statements, from those of a body to the one it belongs to. -/
@[elab_as_elim]
theorem induction {motive : Statement → Prop} (step : ∀ s, (∀ t ∈ s.body, motive t) → motive s)
    (s : Statement) : motive s :=
  step s fun t _ => induction step t
termination_by sizeOf s
decreasing_by exact sizeOf_lt_of_mem_body ‹_›

theorem allStatements_map_item (ss : List Statement) : Item.allStatements (ss.map item) = ss := by
  induction ss with
  | nil => rfl
  | cons s ss ih => simp [Item.allStatements, ih, item, Item.statements]

/-! ## The loop over the statements of a level -/

variable (limit : Nesting.Limit) (depth : Nat)

/-- The field that a statement means. -/
def build (s : Statement) : Traced BuildError Field := Item.fieldOf limit depth s.keyword s.args

/-- The fields of statements one after the other, at a level where the names `seen` are taken. -/
def buildEach (seen : List Text) : List Statement → Traced BuildError (List Field)
  | [] => return []
  | s :: ss => do
    let f ← s.build limit depth
    if f.id ∈ seen then Traced.fail (.duplicate f.id s.item)
    else do
      let more ← buildEach (f.id :: seen) ss
      return f :: more

/-- Which names are taken counts, not in which order they were. -/
theorem buildEach_congr {seen seen' : List Text} (h : ∀ t, t ∈ seen ↔ t ∈ seen') (ss : List Statement) :
    buildEach limit depth seen ss = buildEach limit depth seen' ss := by
  induction ss generalizing seen seen' with
  | nil => rfl
  | cons s ss ih =>
    simp only [buildEach, h]
    congr 1
    funext f
    have hseen : ∀ t, t ∈ f.id :: seen ↔ t ∈ f.id :: seen' := by simp [h]
    rw [ih hseen]

theorem buildEach_append (seen : List Text) (ss ts : List Statement) :
    buildEach limit depth seen (ss ++ ts) = (do
      let fields ← buildEach limit depth seen ss
      let more ← buildEach limit depth (fields.map Field.id ++ seen) ts
      return fields ++ more) := by
  induction ss generalizing seen with
  | nil => simp [buildEach]
  | cons s ss ih =>
    simp only [List.cons_append, buildEach, bind_assoc]
    congr 1
    funext f
    split
    · rfl
    · simp only [ih, bind_assoc, pure_bind]
      congr 1
      funext fields
      have hseen : ∀ t, t ∈ fields.map Field.id ++ f.id :: seen ↔ t ∈ (f :: fields).map Field.id ++ seen := by grind
      rw [buildEach_congr limit depth hseen]
      rfl

end Statement

namespace Item

variable (limit : Nesting.Limit) (depth : Nat)

mutual

theorem build_eq_buildEach (seen : List Text) :
    ∀ i : Item, i.build limit depth seen = Statement.buildEach limit depth seen i.statements
  | .statement keyword args => by
    simp only [build, statements, Statement.buildEach, Statement.build, Statement.item, pure_bind]
  | .block items => by
    simp only [build, statements]
    exact buildAll_eq_buildEach seen items

theorem buildAll_eq_buildEach (seen : List Text) :
    ∀ items : List Item, buildAll limit depth seen items = Statement.buildEach limit depth seen (allStatements items)
  | [] => by simp only [buildAll, allStatements, Statement.buildEach]
  | i :: is => by
    simp only [buildAll, allStatements, Statement.buildEach_append]
    rw [build_eq_buildEach seen i]
    congr 1
    funext fields
    rw [buildAll_eq_buildEach (fields.map Field.id ++ seen) is]

end

theorem bodyFields_eq_buildEach (d : Declaration) :
    bodyFields limit depth d = Statement.buildEach limit depth [] d.statements := by
  cases d with
  | single i => simp [bodyFields, build_eq_buildEach, Declaration.statements, Declaration.items, allStatements]
  | sequence is => simp [bodyFields, buildAll_eq_buildEach, Declaration.statements, Declaration.items]

end Item

/-! ## Values that are a declaration -/

namespace Value

def item? : Value → Option Item
  | .item i => some i
  | _ => Option.none

/-- The items of a value that is a declaration: one, or a list or tuple of them. -/
def items? : Value → Option (List Item)
  | .item i => some [i]
  | .list xs => xs.mapM item?
  | .tuple xs => xs.mapM item?
  | _ => Option.none

/-- The statements of a value that is a declaration. -/
def statements? (v : Value) : Option (List Statement) := v.items?.map Item.allStatements

theorem mapM_item?_eq_some_iff {xs : List Value} {items : List Item} :
    xs.mapM item? = some items ↔ xs = items.map .item := by
  induction xs generalizing items with
  | nil => cases items <;> simp
  | cons x xs ih =>
    cases x with
    | item i =>
      have hstep : (.item i :: xs).mapM item? = (xs.mapM item?).map (i :: ·) := by
        cases h : xs.mapM item? <;> simp [item?, h]
      rw [hstep, Option.map_eq_some_iff]
      simp only [ih]
      constructor
      · rintro ⟨is, rfl, rfl⟩
        rfl
      · intro h
        obtain ⟨j, is, rfl, hj, his⟩ := List.map_eq_cons_iff.mp h.symm
        cases hj
        exact ⟨is, his.symm, rfl⟩
    | _ => cases items <;> simp [item?]

/-- A declaration on its own has the statements that it has as a body. -/
theorem statements?_toValue (d : Declaration) : d.toValue.statements? = some d.statements := by
  have hitems : d.toValue.items? = some d.items := by
    cases d with
    | single i => rfl
    | sequence is => exact mapM_item?_eq_some_iff.mpr rfl
  rw [statements?, hitems]
  rfl

/-- The sequence of these statements. -/
def ofStatements (ss : List Statement) : Value := .list ((ss.map Statement.item).map .item)

theorem statements?_ofStatements (ss : List Statement) : (ofStatements ss).statements? = some ss := by
  have hitems : (ofStatements ss).items? = some (ss.map Statement.item) := mapM_item?_eq_some_iff.mpr rfl
  rw [statements?, hitems, Option.map_some, Statement.allStatements_map_item]

theorem ofStatements_inj {ss ts : List Statement} : ofStatements ss = ofStatements ts ↔ ss = ts := by
  refine ⟨fun h => ?_, fun h => h ▸ rfl⟩
  have := congrArg statements? h
  simpa only [statements?_ofStatements, Option.some.injEq] using this

end Value

namespace Item

variable (limit : Nesting.Limit)

theorem buildValues_map_item (seen : List Text) (items : List Item) :
    buildValues limit seen (items.map .item) = buildAll limit 1 seen items := by
  induction items generalizing seen with
  | nil => rfl
  | cons i is ih => simp only [List.map_cons, buildValues, buildAll, ih]

/-- A value that is no item ends the build wherever it stands. -/
theorem buildValues_of_no_items {xs : List Value} (h : xs.mapM Value.item? = none) (seen : List Text)
    (forest : List Field) : (buildValues limit seen xs).result ≠ .ok forest := by
  induction xs generalizing seen forest with
  | nil => simp at h
  | cons x xs ih =>
    cases x with
    | item i =>
      have hxs : xs.mapM Value.item? = none := by
        cases hx : xs.mapM Value.item? with
        | none => rfl
        | some is => simp [Value.item?, hx] at h
      intro hb
      simp only [buildValues, Traced.result_bind_eq_ok] at hb
      obtain ⟨fields, -, more, hm, -⟩ := hb
      exact ih hxs _ _ hm
    | _ => simp [buildValues]

end Item

namespace Value

variable (limit : Nesting.Limit)

/-- A value that is a declaration is built as its statements are. -/
theorem topFields_of_statements? {v : Value} {ss : List Statement} (h : v.statements? = some ss) :
    v.topFields limit = Statement.buildEach limit 1 [] ss := by
  obtain ⟨items, hi, rfl⟩ := Option.map_eq_some_iff.mp h
  cases v with
  | item i =>
    simp only [items?, Option.some.injEq] at hi
    subst hi
    simp [topFields, Item.build_eq_buildEach, Item.allStatements]
  | list xs | tuple xs =>
    rw [mapM_item?_eq_some_iff.mp hi, topFields, Item.buildValues_map_item, Item.buildAll_eq_buildEach]
  | _ => simp [items?] at hi

theorem topFields_of_no_statements {v : Value} (h : v.statements? = Option.none) (forest : List Field) :
    (v.topFields limit).result ≠ .ok forest := by
  have hi : v.items? = Option.none := Option.map_eq_none_iff.mp h
  cases v with
  | item i => simp [items?] at hi
  | list xs | tuple xs => exact Item.buildValues_of_no_items limit hi [] forest
  | _ => simp [topFields]

/-- A forest is built from the statements of a declaration and from nothing else. -/
theorem buildForest_eq_ok_iff {v : Value} {forest : List Field} :
    (v.buildForest limit).result = .ok forest ↔
      ∃ ss, v.statements? = some ss ∧ (Statement.buildEach limit 1 [] ss).result = .ok forest := by
  have htop : (v.buildForest limit).result = .ok forest ↔ (v.topFields limit).result = .ok forest := by
    simp [buildForest, Traced.result_bind_eq_ok, Except.map]
  rw [htop]
  cases h : v.statements? with
  | none => simp [topFields_of_no_statements limit h]
  | some ss => simp [topFields_of_statements? limit h]

end Value

end FieldForest
