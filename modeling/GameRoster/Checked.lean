import GameRoster.Fault
import GameRoster.Value

namespace GameRoster

/-- A time that does not fall on a logic tick, as it was written. -/
structure Warning where
  loc : Location
  raw : Value

structure Checked (α : Type) where
  result : Except Fault α
  warnings : List Warning

namespace Checked

def ok {α : Type} (a : α) : Checked α := ⟨.ok a, []⟩

def fail {α : Type} (fault : Fault) : Checked α := ⟨.error fault, []⟩

def warn (warning : Warning) : Checked Unit := ⟨.ok (), [warning]⟩

def ofCheck {α : Type} (check : Check α) : Checked α := ⟨check, []⟩

def bind {α β : Type} (x : Checked α) (f : α → Checked β) : Checked β :=
  match x.result with
  | .error fault => ⟨.error fault, x.warnings⟩
  | .ok a => ⟨(f a).result, x.warnings ++ (f a).warnings⟩

instance : Monad Checked where
  pure := ok
  bind := bind

instance : MonadLift (Except Fault) Checked where
  monadLift := ofCheck

@[ext] theorem ext {α : Type} {x y : Checked α} (hr : x.result = y.result)
    (hw : x.warnings = y.warnings) : x = y := by
  cases x
  cases y
  simp_all

@[simp] theorem result_pure {α : Type} (a : α) : (pure a : Checked α).result = .ok a := rfl

@[simp] theorem warnings_pure {α : Type} (a : α) : (pure a : Checked α).warnings = [] := rfl

@[simp] theorem result_ofCheck {α : Type} (c : Check α) : (ofCheck c).result = c := rfl

@[simp] theorem warnings_ofCheck {α : Type} (c : Check α) : (ofCheck c).warnings = [] := rfl

/-- The outcome of a sequence does not depend on warnings. -/
@[simp] theorem result_bind {α β : Type} (x : Checked α) (f : α → Checked β) :
    (x >>= f).result = x.result >>= fun a => (f a).result := by
  change (bind x f).result = _
  unfold bind
  cases x.result <;> rfl

theorem bind_of_ok {α β : Type} {x : Checked α} {a : α} (h : x.result = .ok a)
    (f : α → Checked β) : x >>= f = ⟨(f a).result, x.warnings ++ (f a).warnings⟩ := by
  change bind x f = _
  simp [bind, h]

theorem bind_of_error {α β : Type} {x : Checked α} {fault : Fault} (h : x.result = .error fault)
    (f : α → Checked β) : x >>= f = ⟨.error fault, x.warnings⟩ := by
  change bind x f = _
  simp [bind, h]

instance : LawfulMonad Checked := LawfulMonad.mk' Checked
  (by
    intro α x
    cases hx : x.result with
    | ok a => exact ext (by simp [Functor.map, bind, hx, ok]) (by simp [Functor.map, bind, hx, ok])
    | error e => exact ext (by simp [Functor.map, bind, hx]) (by simp [Functor.map, bind, hx]))
  (by
    intro α β a f
    exact ext rfl (by change [] ++ _ = _; simp))
  (by
    intro α β γ x f g
    cases hx : x.result with
    | error e => simp only [bind_of_error hx]; exact bind_of_error rfl g
    | ok a =>
      rw [bind_of_ok hx, bind_of_ok hx]
      cases hf : (f a).result with
      | error e => rw [bind_of_error hf]; exact bind_of_error rfl g
      | ok b => rw [bind_of_ok hf]; exact (bind_of_ok rfl g).trans (by simp [List.append_assoc]))

end Checked

end GameRoster
