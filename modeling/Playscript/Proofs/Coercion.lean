import Playscript.Coercion

/-!
# What coercion gives

A directive can write texts, truth values, numbers and lists. No text stands for nothing or for a
record.
-/
namespace Playscript

def Value.Writable : Value → Prop
  | .null => False
  | .dict _ => False
  | _ => True

namespace Value.Writable

variable {v : Value}

theorem isNull (h : v.Writable) : v.isNull = false := by
  cases v with
  | null => exact h.elim
  | _ => rfl

theorem entries (h : v.Writable) : v.entries = [] := by
  cases v with
  | dict entries => exact h.elim
  | _ => rfl

end Value.Writable

namespace Coercion

theorem writable_number {s : List Char} {v : Value} (h : number? s = .ok (some v)) :
    v.Writable := by
  rw [number?] at h
  split at h
  · cases h
  · split at h <;> cases h <;> trivial

theorem writable_scalar {s : List Char} {v : Value} (h : scalar s = .ok v) : v.Writable := by
  rw [scalar] at h
  split at h
  · cases h
    trivial
  split at h
  · cases h
    trivial
  split at h
  · cases h
    trivial
  split at h
  · cases h
  · next w hw =>
    cases h
    exact writable_number hw
  · cases h
    trivial

theorem writable_restore {s : List Char} {v : Value} (h : restore s = .ok v) : v.Writable := by
  rw [restore] at h
  split at h
  · cases h
  · next w hw =>
    cases h
    rw [array?] at hw
    split at hw
    · cases hw
    · cases hw
    · split at hw <;> cases hw
      trivial
  · exact writable_scalar h

end Coercion

end Playscript
