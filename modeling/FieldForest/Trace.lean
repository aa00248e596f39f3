/-
  FieldForest.Trace — what reading and building report on the way.

  A traced computation has its events beside its result, those of a failed one included.
-/
import FieldForest.Value.Display

namespace FieldForest

inductive Event where
  | opened (path : Text)
  | declarationRead (kind : Text)
  | overriding (given : Value) (field : Text) (required : Bool)
  | built (field : Field) (depth : Nat)
  | forestBuilt (roots : Nat)

def Event.message : Event → Text
  | .opened path => "Reading declaration file " ++ path
  | .declarationRead kind => "Read JSON declaration: " ++ kind
  | .overriding given field required =>
    "Overriding 'required: " ++ given.display ++ "' option of field '" ++ field ++ "' with keyword value " ++
      Text.ofBool required
  | .built field depth =>
    "Built " ++ (if field.isComposite then "composite" else "leaf" : Text) ++ " field '" ++ field.id ++
      "' of type '" ++ field.type ++ "' at depth " ++ Text.ofNat depth
  | .forestBuilt roots => "Built schema tree with " ++ Text.ofNat roots ++ " top-level fields"

/-- The events of a computation, in order, and its result. -/
structure Traced (ε α : Type) where
  events : List Event
  result : Except ε α

namespace Traced

variable {ε α β : Type}

def fail (e : ε) : Traced ε α := ⟨[], .error e⟩

def ofExcept (x : Except ε α) : Traced ε α := ⟨[], x⟩

def report (e : Event) : Traced ε Unit := ⟨[e], .ok ()⟩

protected def pure (a : α) : Traced ε α := ⟨[], .ok a⟩

/-- A computation and then another; a failure ends both. -/
protected def bind (x : Traced ε α) (f : α → Traced ε β) : Traced ε β :=
  match x.result with
  | .ok a => ⟨x.events ++ (f a).events, (f a).result⟩
  | .error e => ⟨x.events, .error e⟩

/-- The same with another error. -/
def mapError {ε' : Type} (f : ε → ε') (x : Traced ε α) : Traced ε' α := ⟨x.events, x.result.mapError f⟩

instance : Monad (Traced ε) where
  pure := Traced.pure
  bind := Traced.bind

/-! ## Laws -/

theorem bind_eq (x : Traced ε α) (f : α → Traced ε β) : x >>= f = x.bind f := rfl

protected theorem id_map (x : Traced ε α) : id <$> x = x := by
  obtain ⟨events, result⟩ := x
  cases result with
  | error e => rfl
  | ok a => simp [Functor.map, Traced.bind, Traced.pure]

protected theorem bind_assoc {γ : Type} (x : Traced ε α) (f : α → Traced ε β) (g : β → Traced ε γ) :
    x >>= f >>= g = x >>= fun a => f a >>= g := by
  obtain ⟨events, result⟩ := x
  cases result with
  | error e => rfl
  | ok a => rcases h : f a with ⟨more, e | b⟩ <;> simp [bind_eq, Traced.bind, h]

instance : LawfulMonad (Traced ε) := .mk' _ Traced.id_map (fun _ _ => rfl) Traced.bind_assoc

/-! ## Results -/

@[simp] theorem result_pure (a : α) : (pure a : Traced ε α).result = .ok a := rfl

@[simp] theorem result_fail (e : ε) : (fail e : Traced ε α).result = .error e := rfl

@[simp] theorem result_ofExcept (x : Except ε α) : (ofExcept x).result = x := rfl

@[simp] theorem result_report (e : Event) : (report e : Traced ε Unit).result = .ok () := rfl

@[simp] theorem result_report_bind (e : Event) (f : Unit → Traced ε β) :
    (report e >>= f).result = (f ()).result := rfl

@[simp] theorem result_map (f : α → β) (x : Traced ε α) : (f <$> x).result = x.result.map f := by
  obtain ⟨events, result⟩ := x
  cases result <;> rfl

@[simp] theorem result_mapError {ε' : Type} (f : ε → ε') (x : Traced ε α) :
    (x.mapError f).result = x.result.mapError f := rfl

/-- The result of two computations is that of their results. -/
theorem result_bind (x : Traced ε α) (f : α → Traced ε β) :
    (x >>= f).result = x.result >>= fun a => (f a).result := by
  obtain ⟨events, result⟩ := x
  cases result <;> rfl

theorem result_bind_eq_ok {x : Traced ε α} {f : α → Traced ε β} {b : β} :
    (x >>= f).result = .ok b ↔ ∃ a, x.result = .ok a ∧ (f a).result = .ok b := by
  obtain ⟨events, result⟩ := x
  cases result <;> simp [bind_eq, Traced.bind]

/-! ## Events -/

@[simp] theorem events_report (e : Event) : (report e : Traced ε Unit).events = [e] := rfl

/-- A computation that gives a value goes on with it. -/
theorem bind_eq_of_ok {x : Traced ε α} {a : α} (h : x.result = .ok a) (f : α → Traced ε β) :
    x >>= f = ⟨x.events ++ (f a).events, (f a).result⟩ := by
  obtain ⟨events, result⟩ := x
  subst h
  rfl

theorem ofExcept_ok_bind (a : α) (f : α → Traced ε β) : ofExcept (.ok a) >>= f = f a := rfl

/-- All events of a computation, a failed one included, are of a kind. -/
def Reports (kind : Event → Prop) (x : Traced ε α) : Prop := ∀ e ∈ x.events, kind e

theorem reports_fail (kind : Event → Prop) (e : ε) : (fail e : Traced ε α).Reports kind := List.forall_mem_nil _

theorem reports_pure (kind : Event → Prop) (a : α) : (pure a : Traced ε α).Reports kind := List.forall_mem_nil _

theorem reports_ofExcept (kind : Event → Prop) (x : Except ε α) : (ofExcept x).Reports kind := List.forall_mem_nil _

theorem reports_report {kind : Event → Prop} {e : Event} (h : kind e) : (report e : Traced ε Unit).Reports kind :=
  List.forall_mem_singleton.mpr h

theorem Reports.bind {kind : Event → Prop} {x : Traced ε α} {f : α → Traced ε β} (hx : x.Reports kind)
    (hf : ∀ a, (f a).Reports kind) : (x >>= f).Reports kind := by
  obtain ⟨events, result⟩ := x
  cases result with
  | error e => exact hx
  | ok a => exact List.forall_mem_append.mpr ⟨hx, hf a⟩

end Traced

section

variable {ε ε' α β : Type} {f : ε → ε'}

theorem bind_eq_error_iff {x : Except ε α} {g : α → Except ε β} {e : ε} :
    x >>= g = .error e ↔ x = .error e ∨ ∃ a, x = .ok a ∧ g a = .error e := by
  cases x <;> simp [bind, Except.bind]

theorem mapError_error (e : ε) : (.error e : Except ε α).mapError f = .error (f e) := rfl

theorem mapError_ok (a : α) : (.ok a : Except ε α).mapError f = .ok a := rfl

theorem mapError_eq_error_iff {x : Except ε α} {e' : ε'} :
    x.mapError f = .error e' ↔ ∃ e, x = .error e ∧ f e = e' := by
  cases x <;> simp [mapError_error, mapError_ok]

theorem mapError_eq_ok_iff {x : Except ε α} {a : α} : x.mapError f = .ok a ↔ x = .ok a := by
  cases x <;> simp [mapError_error, mapError_ok]

theorem map_eq_ok_iff {x : Except ε α} {g : α → β} {b : β} : x.map g = .ok b ↔ ∃ a, x = .ok a ∧ g a = b := by
  cases x <;> simp [Except.map]

theorem bind_eq_ok_iff {x : Except ε α} {g : α → Except ε β} {b : β} :
    x >>= g = .ok b ↔ ∃ a, x = .ok a ∧ g a = .ok b := by
  cases x <;> simp [bind, Except.bind]

theorem toOption_eq_some_iff {x : Except ε α} {a : α} : x.toOption = some a ↔ x = .ok a := by
  cases x <;> simp [Except.toOption]

theorem toOption_eq_none_iff {x : Except ε α} : x.toOption = none ↔ ∃ e, x = .error e := by
  cases x <;> simp [Except.toOption]

end

end FieldForest
