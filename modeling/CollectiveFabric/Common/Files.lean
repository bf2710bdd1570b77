import Mathlib.Data.List.Basic
import Mathlib.Logic.Function.Basic

/-!
# Files behind names

A directory gives each name a file or none, and no two names the same.
Opening a name with truncation empties the file it has, or gives it a new
one; writing goes to the file a handle stands for, at its beginning,
whatever its name has become since; renaming gives one name the file of
another, which is left without one.
-/

namespace Common

/-- Named files of `β`, numbered; the numbers from `next` on are free. -/
structure Files (ν β : Type) where
  entry : ν → Option ℕ
  content : ℕ → List β
  next : ℕ
  lt_next : ∀ n i, entry n = some i → i < next
  apart : ∀ n n' i, entry n = some i → entry n' = some i → n = n'

namespace Files

variable {ν β : Type} [DecidableEq ν] (s : Files ν β) {n n' : ν} {i : ℕ} {bs : List β}

/-- No file at all. -/
def empty : Files ν β where
  entry _ := none
  content _ := []
  next := 0
  lt_next _ _ h := by cases h
  apart _ _ _ h := by cases h

/-- What a name's file holds. -/
def read (n : ν) : Option (List β) := (s.entry n).map s.content

/-- Bytes written over the beginning of others. -/
def overlay (bs c : List β) : List β := bs ++ c.drop bs.length

/-- Write through a handle. -/
def write (i : ℕ) (bs : List β) : Files ν β :=
  { s with content := Function.update s.content i (overlay bs (s.content i)) }

/-- Give a name a new, empty file. -/
def create (n : ν) : Files ν β where
  entry := Function.update s.entry n (some s.next)
  content := Function.update s.content s.next []
  next := s.next + 1
  lt_next m i h := by
    by_cases hm : m = n
    · subst hm
      rw [Function.update_self] at h
      cases h
      omega
    · rw [Function.update_of_ne hm] at h
      exact Nat.lt_succ_of_lt (s.lt_next m i h)
  apart m m' i h h' := by
    -- the new number is nobody else's
    by_cases hm : m = n <;> by_cases hm' : m' = n
    · rw [hm, hm']
    · rw [hm, Function.update_self] at h
      rw [Function.update_of_ne hm'] at h'
      have := s.lt_next m' i h'
      cases h
      omega
    · rw [hm', Function.update_self] at h'
      rw [Function.update_of_ne hm] at h
      have := s.lt_next m i h
      cases h'
      omega
    · rw [Function.update_of_ne hm] at h
      rw [Function.update_of_ne hm'] at h'
      exact s.apart m m' i h h'

/-- Open a name with truncation: the files, and the handle. -/
def openTrunc (n : ν) : Files ν β × ℕ :=
  match s.entry n with
  | some i => ({ s with content := Function.update s.content i [] }, i)
  | none => (s.create n, s.next)

/-- Move the file of `n` to `n'`, in the place of the file there. -/
def move (n n' : ν) : Files ν β where
  entry m := if m = n' then s.entry n else if m = n then none else s.entry m
  content := s.content
  next := s.next
  lt_next m i h := by
    split_ifs at h
    · exact s.lt_next n i h
    · exact s.lt_next m i h
  apart m m' i h h' := by
    split_ifs at h h' with h₁ h₂ h₃ h₄ h₅ h₆
    · rw [h₁, h₂]
    · exact absurd (s.apart n m' i h h').symm h₃
    · exact absurd (s.apart m n i h h') h₄
    · exact s.apart m m' i h h'

/-- Rename `n` to `n'`, where `n` has a file. -/
def rename (n n' : ν) : Option (Files ν β) := (s.entry n).map fun _ => s.move n n'

/-! ## What each leaves -/

variable {s}

theorem overlay_of_length_le {c : List β} (h : c.length ≤ bs.length) : overlay bs c = bs := by
  rw [overlay, List.drop_eq_nil_of_le h, List.append_nil]

omit [DecidableEq ν] in
@[simp] theorem entry_write (i : ℕ) (bs : List β) : (s.write i bs).entry = s.entry := rfl

omit [DecidableEq ν] in
theorem read_write_self (h : s.entry n = some i) :
    (s.write i bs).read n = some (overlay bs (s.content i)) := by
  rw [read, write]
  simp [h]

omit [DecidableEq ν] in
theorem read_write_of_ne (h : s.entry n ≠ some i) : (s.write i bs).read n = s.read n := by
  rw [read, read, write]
  cases hn : s.entry n with
  | none => rfl
  | some j =>
    have hj : j ≠ i := fun heq => h (by rw [hn, heq])
    simp [Function.update_of_ne hj]

omit [DecidableEq ν] in
/-- Writing nothing changes nothing. -/
theorem write_nil : s.write i [] = s := by
  simp [write, overlay]

theorem entry_openTrunc_self : (s.openTrunc n).1.entry n = some (s.openTrunc n).2 := by
  rw [openTrunc]
  split
  · assumption
  · exact Function.update_self ..

theorem read_openTrunc_self : (s.openTrunc n).1.read n = some [] := by
  rw [read, openTrunc]
  split
  · next i hi => simp [hi]
  · simp [create]

/-- **Opening a name disturbs no other.** -/
theorem read_openTrunc_of_ne (h : n' ≠ n) : (s.openTrunc n).1.read n' = s.read n' := by
  rw [read, read, openTrunc]
  split
  · next i hi =>
    cases hn' : s.entry n' with
    | none => simp
    | some j =>
      have hj : j ≠ i := fun heq => h (s.apart n' n i (by rw [hn', heq]) hi)
      simp [Function.update_of_ne hj]
  · simp only [create, Function.update_of_ne h]
    cases hn' : s.entry n' with
    | none => rfl
    | some j =>
      have hj : j ≠ s.next := Nat.ne_of_lt (s.lt_next n' j hn')
      simp [Function.update_of_ne hj]

/-- The handle of a name that has a file is that file. -/
theorem openTrunc_of_some (h : s.entry n = some i) : (s.openTrunc n).2 = i := by
  rw [openTrunc, h]

theorem read_move : (s.move n n').read n' = s.read n := by
  simp [read, move]

theorem entry_move (h : n ≠ n') : (s.move n n').entry n = none := by
  simp [move, h]

end Files

end Common
