import Redisoo.Foundation.Bytes

/-!
# Arrays of cells

The elements of a list stored one after the other, each in the same number of bytes.
-/

namespace Redisoo
namespace Foundation
namespace Cells

variable {α : Type _}

def cells (enc : α -> List UInt8) (xs : List α) : List UInt8 :=
  xs.flatMap enc

section Width

variable {enc : α -> List UInt8} {w : Nat}

@[simp] theorem cells_nil : cells enc [] = [] := rfl

@[simp] theorem cells_cons (x : α) (xs : List α) : cells enc (x :: xs) = enc x ++ cells enc xs :=
  rfl

@[simp] theorem cells_append (xs ys : List α) :
    cells enc (xs ++ ys) = cells enc xs ++ cells enc ys :=
  List.flatMap_append

theorem cells_length (hw : forall x, (enc x).length = w) (xs : List α) :
    (cells enc xs).length = w * xs.length := by
  induction xs with
  | nil => rfl
  | cons x xs ih =>
    rw [cells_cons, List.length_append, hw, ih, List.length_cons, Nat.mul_succ, Nat.add_comm]

theorem take_cells (hw : forall x, (enc x).length = w) (xs : List α) (rest : List UInt8) :
    (cells enc xs ++ rest).take (w * xs.length) = cells enc xs :=
  List.take_left' (cells_length hw xs)

end Width

end Cells
end Foundation
end Redisoo
