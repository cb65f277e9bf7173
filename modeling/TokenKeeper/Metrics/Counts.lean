/-!
# Counts

How often each of several things has happened. What never happened is not listed.
-/
namespace TokenKeeper

/-- How often each thing happened, in the order in which they first did. -/
abbrev Counts (κ : Type) := List (κ × Nat)

namespace Counts
variable {κ : Type} [DecidableEq κ]

def get (c : Counts κ) (k : κ) : Nat := (c.lookup k).getD 0

def bump : Counts κ → κ → Counts κ
  | [], k => [(k, 1)]
  | (l, n) :: c, k => if k = l then (l, n + 1) :: c else (l, n) :: bump c k

/-- How often anything happened that satisfies `p`. -/
def total : Counts κ → (κ → Bool) → Nat
  | [], _ => 0
  | (k, n) :: c, p => (if p k then n else 0) + total c p

theorem get_cons (k l : κ) (n : Nat) (c : Counts κ) :
    get ((k, n) :: c) l = if l = k then n else get c l := by
  by_cases h : l = k
  · subst h; simp [get]
  · have : (l == k) = false := by simpa using h
    simp [get, List.lookup_cons, this, h]

theorem get_bump (c : Counts κ) (k l : κ) :
    (c.bump k).get l = if l = k then c.get l + 1 else c.get l := by
  induction c with
  | nil => rw [bump, get_cons]; rfl
  | cons e c ih =>
    obtain ⟨m, n⟩ := e
    rw [bump]
    split
    · next h => subst h; rw [get_cons, get_cons]; split <;> rfl
    · next h =>
      rw [get_cons, get_cons, ih]
      by_cases hl : l = m
      · rw [if_pos hl, if_pos hl, if_neg (by rw [hl]; exact Ne.symm h)]
      · rw [if_neg hl, if_neg hl]

/-- Whatever is listed afterwards was listed before, or is what happened. -/
theorem mem_bump {c : Counts κ} {k l : κ} {n : Nat} (h : (l, n) ∈ c.bump k) :
    l = k ∨ ∃ n', (l, n') ∈ c := by
  induction c with
  | nil =>
    cases List.mem_singleton.1 h
    exact .inl rfl
  | cons e c ih =>
    obtain ⟨m, n'⟩ := e
    rw [bump] at h
    split at h
    · next hk =>
      rcases List.mem_cons.1 h with h | h
      · cases h
        exact .inl hk.symm
      · exact .inr ⟨n, List.mem_cons_of_mem _ h⟩
    · rcases List.mem_cons.1 h with h | h
      · cases h
        exact .inr ⟨n, List.mem_cons_self⟩
      · exact (ih h).imp_right fun ⟨n'', h⟩ => ⟨n'', List.mem_cons_of_mem _ h⟩

theorem total_bump (c : Counts κ) (k : κ) (p : κ → Bool) :
    (c.bump k).total p = c.total p + if p k then 1 else 0 := by
  induction c with
  | nil => simp [bump, total]
  | cons e c ih =>
    obtain ⟨m, n⟩ := e
    rw [bump]
    split
    · next h => subst h; simp only [total]; split <;> omega
    · simp only [total, ih]; omega

end Counts

end TokenKeeper
