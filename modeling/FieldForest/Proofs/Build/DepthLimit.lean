/-
  FieldForest.Proofs.Build.DepthLimit — what the limit on depth decides, and what it does not.

  A build asks for its limit in one place, in front of every other check of a statement. So two
  builds of one value, the second with the wider limit, take the same steps until the first
  meets a statement below its limit; there it fails for that reason, and before that place
  nothing can tell the two apart.

  Proved:
  - `UpTo.bind`: agreement up to a failure for depth passes through a sequence of computations.
  - `build_upTo` / `buildEach_upTo` / `buildForest_upTo`: builds under two limits agree so, over
    statements, over the statements of a level and over values.
  - `Sound.narrow`: a sound statement is sound under every limit that its field keeps to.
  - `buildForest_under_wider_limit`: a wider limit changes the outcome only if the failure was
    one for depth, and a narrower one keeps a forest or fails for depth.
-/
import FieldForest.Proofs.Build.Image

namespace FieldForest

/-- The computation fails because a statement stands below the limit. -/
def FailsForDepth {α : Type} (limit : Nesting.Limit) (x : Traced BuildError α) : Prop :=
  ∃ statement, x.result = .error (.tooDeep limit.depth statement)

/-- The same events and the same result, unless the first computation fails for depth. -/
def UpTo {α : Type} (limit : Nesting.Limit) (x y : Traced BuildError α) : Prop := FailsForDepth limit x ∨ y = x

namespace UpTo

variable {α β : Type} {limit : Nesting.Limit}

theorem refl (x : Traced BuildError α) : UpTo limit x x := .inr rfl

/-- Computations that agree up to a failure for depth, and then others that do. -/
theorem bind {x y : Traced BuildError α} {f g : α → Traced BuildError β} (h : UpTo limit x y)
    (hfg : ∀ a, UpTo limit (f a) (g a)) : UpTo limit (x >>= f) (y >>= g) := by
  obtain ⟨events, result⟩ := x
  rcases h with ⟨statement, hfails⟩ | rfl
  · left
    refine ⟨statement, ?_⟩
    cases hfails
    rfl
  · cases result with
    | error e => exact .inr rfl
    | ok a =>
      rcases hfg a with ⟨statement, hfails⟩ | hsame
      · exact .inl ⟨statement, hfails⟩
      · right
        simp only [Traced.bind_eq, Traced.bind, hsame]

end UpTo

/-! ## Two builds of one value -/

section

variable {limit wider : Nesting.Limit} {depth : Nat}

/-- The one place where the limit counts. -/
theorem Item.keywordAt_upTo (h : limit.depth ≤ wider.depth) (depth : Nat) (keyword : Text) (statement : Item) :
    UpTo limit (.ofExcept (keywordAt limit depth keyword statement))
      (.ofExcept (keywordAt wider depth keyword statement)) := by
  unfold keywordAt
  by_cases hd : limit.depth < depth
  · left
    rw [if_pos hd]
    exact ⟨statement, rfl⟩
  · right
    rw [if_neg hd, if_neg (by omega)]

theorem Statement.buildEach_upTo_of {ss : List Statement} (seen : List Text)
    (hs : ∀ s ∈ ss, UpTo limit (s.build limit depth) (s.build wider depth)) :
    UpTo limit (buildEach limit depth seen ss) (buildEach wider depth seen ss) := by
  induction ss generalizing seen with
  | nil => exact .refl _
  | cons s ss ih =>
    refine (hs s List.mem_cons_self).bind fun f => ?_
    split
    · exact .refl _
    · exact (ih (f.id :: seen) fun t ht => hs t (List.mem_cons_of_mem _ ht)).bind fun _ => .refl _

theorem Statement.build_upTo (h : limit.depth ≤ wider.depth) (s : Statement) (depth : Nat) :
    UpTo limit (s.build limit depth) (s.build wider depth) := by
  induction s using Statement.induction generalizing depth with
  | step s ih =>
    obtain ⟨keyword, args⟩ := s
    have hkeyword := Item.keywordAt_upTo h depth keyword (.statement keyword args)
    show UpTo limit (Item.fieldOf limit depth keyword args) (Item.fieldOf wider depth keyword args)
    unfold Item.fieldOf
    -- only a body is built under the limit again, one level further down
    split
    · exact hkeyword.bind fun _ => .refl _
    · exact hkeyword.bind fun _ => .refl _
    · exact hkeyword.bind fun _ => .refl _
    · refine hkeyword.bind fun _ => (UpTo.refl _).bind fun ⟨id, type⟩ => ?_
      simp only [Item.bodyFields_eq_buildEach]
      refine (buildEach_upTo_of [] fun t ht => ?_).bind fun _ => .refl _
      exact ih t ht (depth + 1)
    · exact hkeyword.bind fun _ => .refl _

theorem Item.build_upTo (h : limit.depth ≤ wider.depth) (seen : List Text) (i : Item) :
    UpTo limit (i.build limit depth seen) (i.build wider depth seen) := by
  rw [build_eq_buildEach, build_eq_buildEach]
  exact Statement.buildEach_upTo_of seen fun s _ => s.build_upTo h depth

theorem Item.buildValues_upTo (h : limit.depth ≤ wider.depth) (seen : List Text) (xs : List Value) :
    UpTo limit (buildValues limit seen xs) (buildValues wider seen xs) := by
  induction xs generalizing seen with
  | nil => exact .refl _
  | cons x xs ih =>
    cases x with
    | item i =>
      refine (build_upTo h seen i).bind fun fields => ?_
      exact (ih (fields.map Field.id ++ seen)).bind fun _ => .refl _
    | _ => exact .refl _

theorem Value.buildForest_upTo (h : limit.depth ≤ wider.depth) (v : Value) :
    UpTo limit (v.buildForest limit) (v.buildForest wider) := by
  have htop : UpTo limit (v.topFields limit) (v.topFields wider) := by
    cases v with
    | item i => exact Item.build_upTo h [] i
    | list xs | tuple xs => exact Item.buildValues_upTo h [] xs
    | _ => exact .refl _
  exact htop.bind fun _ => .refl _

/-! ## Narrower limits -/

/-- A sound statement is sound under every limit that allows for the height of its field. -/
theorem Statement.Sound.narrow {s : Statement} (hs : s.Sound wider depth)
    (hh : depth + s.field.height ≤ limit.depth + 1) : s.Sound limit depth := by
  induction hs with
  | bare hd hid hty =>
    rw [field_bare] at hh
    simp only [Field.height, Field.mostHeight] at hh
    exact .bare (by omega) hid hty
  | options hd hid hty hc he =>
    rw [field_options _ _ _ hc] at hh
    simp only [Field.height, Field.mostHeight] at hh
    exact .options (by omega) hid hty hc he
  | @composite depth k id ty body hd hid hty hne hs hn ih =>
    rw [field_composite] at hh
    simp only [Field.height] at hh
    refine .composite (by omega) hid hty hne (fun t ht => ih t ht ?_) hn
    have hbelow := Field.mostHeight_le_iff.mp (Nat.le_refl _) t.field (List.mem_map_of_mem ht)
    omega

namespace Value

variable {v : Value} {forest : List Field}

/-- A forest that is built is built under every limit that allows for its height. -/
theorem buildForest_narrow (hb : (v.buildForest wider).result = .ok forest)
    (hh : Field.mostHeight forest ≤ limit.depth) : (v.buildForest limit).result = .ok forest := by
  obtain ⟨ss, hss, hs, hn, rfl⟩ := (builds_iff_statements wider v forest).mp hb
  refine (builds_iff_statements limit v _).mpr ⟨ss, hss, fun s hsm => (hs s hsm).narrow ?_, hn, rfl⟩
  have hheight := Field.mostHeight_le_iff.mp hh s.field (List.mem_map_of_mem hsm)
  omega

/-- A forest is no higher than the limit under which it is built. -/
theorem mostHeight_le_of_builds (hb : (v.buildForest limit).result = .ok forest) :
    Field.mostHeight forest ≤ limit.depth := by
  obtain ⟨ss, -, hs, -, rfl⟩ := (builds_iff_statements limit v forest).mp hb
  refine Field.mostHeight_le_iff.mpr fun f hf => ?_
  obtain ⟨s, hsm, rfl⟩ := List.mem_map.mp hf
  have := (hs s hsm).normalized_field.2
  omega

/-- A build that does not fail for depth goes the same way under every wider limit. A forest that
    is built is built under a narrower limit too if it is no higher, and else that build fails
    for depth and names its own limit. -/
theorem buildForest_under_wider_limit (h : limit.depth ≤ wider.depth) (v : Value) :
    ((∀ n statement, (v.buildForest limit).result ≠ .error (.tooDeep n statement)) →
        v.buildForest wider = v.buildForest limit) ∧
      ∀ forest, (v.buildForest wider).result = .ok forest →
        (Field.mostHeight forest ≤ limit.depth → (v.buildForest limit).result = .ok forest) ∧
          (limit.depth < Field.mostHeight forest →
            ∃ statement, (v.buildForest limit).result = .error (.tooDeep limit.depth statement)) := by
  have hupTo := buildForest_upTo h v
  constructor
  · intro hfine
    rcases hupTo with ⟨statement, hfails⟩ | hsame
    · exact absurd hfails (hfine _ _)
    · exact hsame
  · intro forest hb
    refine ⟨buildForest_narrow hb, fun hhigh => ?_⟩
    rcases hupTo with hfails | hsame
    · exact hfails
    · rw [hsame] at hb
      have := mostHeight_le_of_builds hb
      omega

/-- A body below one statement is cut off at the limit 1, and a name given twice is found under
    every limit. -/
theorem cut_off_at_one :
    (∃ s, ((Value.item (.statement "requires" [.text "a", .text "map", .nested (.single
        (.statement "optional" [.text "b", .text "int"]))])).buildForest ⟨1, by decide, by decide⟩).result =
          .error (.tooDeep 1 s)) ∧
      (Value.list [.item (.statement "requires" [.text "a", .text "int"]),
          .item (.statement "optional" [.text "a", .text "int"])]).buildForest .usual =
        (Value.list [.item (.statement "requires" [.text "a", .text "int"]),
          .item (.statement "optional" [.text "a", .text "int"])]).buildForest ⟨1, by decide, by decide⟩ := by
  let one : Nesting.Limit := ⟨1, by decide, by decide⟩
  have hone : one.depth ≤ Nesting.Limit.usual.depth := by decide
  constructor
  · exact ((buildForest_under_wider_limit hone _).2
      [.mk "a" "map" [] true [] [.mk "b" "int" [] false [] []]] rfl).2 (by decide)
  · refine (buildForest_under_wider_limit hone _).1 fun n statement hfails => ?_
    have hduplicate : ((Value.list [.item (.statement "requires" [.text "a", .text "int"]),
        .item (.statement "optional" [.text "a", .text "int"])]).buildForest one).result =
          .error (.duplicate "a" (.statement "optional" [.text "a", .text "int"])) := rfl
    rw [hduplicate] at hfails
    cases hfails

end Value

end

end FieldForest
