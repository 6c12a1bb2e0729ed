/-
# Cutting text at marks

`cutAt` divides a list at every element of a class, `cutOnce` at the first occurrence of one
element.  The elements at which a list is cut belong to no piece, and a list with `n` of them
has `n + 1` pieces, empty ones included.
-/

namespace IrrigationLog.Text

/-- The pieces between the elements of a class. -/
def cutAt (p : α → Bool) : List α → List (List α)
  | [] => [[]]
  | a :: as =>
    match p a, cutAt p as with
    | true, pieces => [] :: pieces
    | false, [] => [[a]]
    | false, piece :: pieces => (a :: piece) :: pieces

/-- What stands before and after the first occurrence of an element, if it occurs. -/
def cutOnce [BEq α] (mark : α) : List α → Option (List α × List α)
  | [] => none
  | a :: as =>
    if a == mark then some ([], as) else (cutOnce mark as).map fun (l, r) => (a :: l, r)

/-- There is always a first piece. -/
theorem cutAt_ne_nil (p : α → Bool) (as : List α) : cutAt p as ≠ [] := by
  cases as with
  | nil => simp [cutAt]
  | cons a as => rw [cutAt]; split <;> simp

/-- A list without marks is its own only piece. -/
theorem cutAt_eq_singleton {p : α → Bool} {as : List α} (h : ∀ a ∈ as, p a = false) :
    cutAt p as = [as] := by
  induction as with
  | nil => rfl
  | cons a as ih =>
    rw [cutAt, h a List.mem_cons_self, ih fun b hb => h b (List.mem_cons_of_mem _ hb)]

/-- The first mark ends the first piece. -/
theorem cutAt_append_cons {p : α → Bool} {as : List α} {m : α} (bs : List α)
    (h : ∀ a ∈ as, p a = false) (hm : p m = true) :
    cutAt p (as ++ m :: bs) = as :: cutAt p bs := by
  induction as with
  | nil => simp [cutAt, hm]
  | cons a as ih =>
    rw [List.cons_append, cutAt, h a List.mem_cons_self,
      ih fun b hb => h b (List.mem_cons_of_mem _ hb)]

end IrrigationLog.Text
