/-!
# Rollbook — results that may be errors

Readers and checks answer with a result or with an error, and are put together from smaller ones.
What a compound answers is told from what its parts answer: exactly, by an equation with `.ok` on
its right, or as a property of whatever is answered, for readers that may fail in many ways.

* `bind_eq_ok_iff`, `map_eq_ok_iff`, `forM_eq_ok_iff` — when a compound answers, and what.
* `Gives`                                           — a property of every answer.
-/

namespace Rollbook

variable {ε α β : Type}

/-- Two steps succeed when the first does and then the second with what it gave. -/
theorem bind_eq_ok_iff {x : Except ε α} {f : α → Except ε β} {b : β} :
    (x >>= f) = .ok b ↔ ∃ a, x = .ok a ∧ f a = .ok b := by
  cases x <;> simp [bind, Except.bind]

theorem map_eq_ok_iff {f : α → β} {x : Except ε α} {b : β} :
    x.map f = .ok b ↔ ∃ a, x = .ok a ∧ f a = b := by
  cases x <;> simp [Except.map]

/-- A check of each item passes when it passes on all of them, in whatever order. -/
theorem forM_eq_ok_iff {f : α → Except ε Unit} {xs : List α} :
    xs.forM f = .ok () ↔ ∀ x ∈ xs, f x = .ok () := by
  induction xs with
  | nil => simp [pure, Except.pure]
  | cons x rest ih =>
    show (f x >>= fun _ => rest.forM f) = .ok () ↔ _
    rw [bind_eq_ok_iff, List.forall_mem_cons, ← ih]
    exact ⟨fun ⟨(), hx, hrest⟩ => ⟨hx, hrest⟩, fun ⟨hx, hrest⟩ => ⟨(), hx, hrest⟩⟩

/-- If there is an answer, it is as said. -/
def Gives (P : α → Prop) (x : Except ε α) : Prop := ∀ a, x = .ok a → P a

namespace Gives

variable {P : α → Prop} {Q : β → Prop} {x : Except ε α} {a : α}

theorem ok (h : P a) : Gives P (.ok a : Except ε α) := fun _ heq => Except.ok.inj heq ▸ h

/-- A failure gives every property, because it gives no value. -/
theorem error {e : ε} : Gives P (.error e : Except ε α) := nofun

/-- Through two steps, each may use what the one before has given. -/
theorem bind {f : α → Except ε β} (hx : Gives P x) (hf : ∀ a, P a → Gives Q (f a)) :
    Gives Q (x >>= f) := by
  intro b hb
  obtain ⟨a, ha, hb⟩ := bind_eq_ok_iff.1 hb
  exact hf a (hx a ha) b hb

theorem map {f : α → β} (hx : Gives P x) (hf : ∀ a, P a → Q (f a)) : Gives Q (x.map f) := by
  intro b hb
  obtain ⟨a, ha, rfl⟩ := map_eq_ok_iff.1 hb
  exact hf a (hx a ha)

/-- Nothing need be known of a part that has no bearing on the property. -/
theorem any : Gives (fun _ => True) x := fun _ _ => trivial

end Gives

end Rollbook
