/-!
Finite tables.

A table holds at most one value for a key. Its laws are about `get?`: what was inserted last under a
key is found there, and every other key is untouched.
-/

namespace StoreSoak

/-- A finite table from keys to values. -/
structure Table (κ ν : Type) where
  entries : List (κ × ν)
  deriving Inhabited

namespace Table

variable {κ ν : Type} [DecidableEq κ]

/-- The table without entries. -/
def empty : Table κ ν := ⟨[]⟩

instance : EmptyCollection (Table κ ν) := ⟨empty⟩

/-- The value under a key. -/
def get? (t : Table κ ν) (k : κ) : Option ν :=
  (t.entries.find? fun e => e.1 = k).map Prod.snd

/-- Whether there is a value under a key. -/
def contains (t : Table κ ν) (k : κ) : Bool :=
  (t.get? k).isSome

/-- The table without the key. -/
def erase (t : Table κ ν) (k : κ) : Table κ ν :=
  ⟨t.entries.filter fun e => ¬ e.1 = k⟩

/-- The table with the value under the key. -/
def insert (t : Table κ ν) (k : κ) (v : ν) : Table κ ν :=
  ⟨(k, v) :: (t.erase k).entries⟩

@[simp] theorem get?_empty (k : κ) : (empty : Table κ ν).get? k = none := rfl

theorem find?_erase_self (l : List (κ × ν)) (k : κ) :
    (l.filter fun e => ¬ e.1 = k).find? (fun e => e.1 = k) = none := by
  simp [List.find?_eq_none]

theorem find?_erase_of_ne (l : List (κ × ν)) {j k : κ} (h : j ≠ k) :
    (l.filter fun e => ¬ e.1 = k).find? (fun e => e.1 = j) = l.find? (fun e => e.1 = j) := by
  induction l with
  | nil => rfl
  | cons e l ih =>
    by_cases hk : e.1 = k
    · have hj : ¬ e.1 = j := fun hj => h (hj.symm.trans hk)
      rw [List.filter_cons_of_neg (by simp [hk]), ih, List.find?_cons_of_neg (by simp [hj])]
    · rw [List.filter_cons_of_pos (by simp [hk])]
      by_cases hj : e.1 = j
      · rw [List.find?_cons_of_pos (by simp [hj]), List.find?_cons_of_pos (by simp [hj])]
      · rw [List.find?_cons_of_neg (by simp [hj]), List.find?_cons_of_neg (by simp [hj]), ih]

/-- The last value inserted under a key is the one found there; other keys are untouched. -/
theorem get?_insert (t : Table κ ν) (k j : κ) (v : ν) :
    (t.insert k v).get? j = if j = k then some v else t.get? j := by
  by_cases h : j = k
  · subst h
    simp [insert, get?]
  · have hk : ¬ k = j := fun e => h e.symm
    simp only [insert, get?, erase, if_neg h]
    rw [List.find?_cons_of_neg (by simp [hk]), find?_erase_of_ne _ h]

/-- An erased key has no value; other keys are untouched. -/
theorem get?_erase (t : Table κ ν) (k j : κ) :
    (t.erase k).get? j = if j = k then none else t.get? j := by
  by_cases h : j = k
  · subst h
    simp only [erase, get?, find?_erase_self, if_pos]
    rfl
  · simp only [erase, get?, find?_erase_of_ne _ h, if_neg h]

end Table

end StoreSoak
