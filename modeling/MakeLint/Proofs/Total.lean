import MakeLint.Total
/-!
# Laws of totals

A total is taken entry by entry, so that totals of lists put together add up, and entries that count
for no more have no greater a total.
-/

namespace MakeLint

variable {α β : Type} {f g : α → Nat}

@[simp] theorem total_nil (f : α → Nat) : total f [] = 0 :=
  rfl

@[simp] theorem total_cons (f : α → Nat) (a : α) (as : List α) :
    total f (a :: as) = f a + total f as :=
  rfl

theorem total_append (f : α → Nat) (as bs : List α) :
    total f (as ++ bs) = total f as + total f bs := by
  induction as with
  | nil => simp
  | cons a as ih => rw [List.cons_append, total_cons, ih, total_cons, Nat.add_assoc]

theorem total_map (f : α → Nat) (h : β → α) (bs : List β) :
    total f (bs.map h) = total (fun b => f (h b)) bs := by
  induction bs with
  | nil => rfl
  | cons b bs ih => rw [List.map_cons, total_cons, ih, total_cons]

theorem total_le {as : List α} (h : ∀ a ∈ as, f a ≤ g a) : total f as ≤ total g as := by
  induction as with
  | nil => simp
  | cons a as ih =>
    have hhead := h a List.mem_cons_self
    have htail := ih fun b hb => h b (List.mem_cons_of_mem _ hb)
    rw [total_cons, total_cons]
    omega

theorem total_length_flatMap (f : α → List β) (as : List α) :
    total (fun a => (f a).length) as = (as.flatMap f).length := by
  induction as with
  | nil => rfl
  | cons a as ih => rw [total_cons, ih, List.flatMap_cons, List.length_append]

end MakeLint
