import Mathlib.Data.List.Induction
import NetLiteral.Address.Ipv6

/-!
# Runs of zero groups

Of the runs of zeros in a list of groups, one is the first of the longest. `longestZeroRun` finds it
from the last group backwards. One pass from the first group on finds it as well, if it remembers
the best run so far and the run that still goes on.
-/

namespace NetLiteral.Ipv6

variable {gs : List UInt16} {g : UInt16} {s l s' l' : Nat}

/-- From `start` on there are `length` zeros, one after another. -/
def IsZeroRun (gs : List UInt16) (start length : Nat) : Prop :=
  ∀ i < length, gs[start + i]? = some 0

/-- No run of zeros is longer, and none that is as long begins earlier. -/
structure IsFirstLongest (gs : List UInt16) (start length : Nat) : Prop where
  isRun : IsZeroRun gs start length
  longest : ∀ s l, IsZeroRun gs s l → l ≤ length
  first : ∀ s, IsZeroRun gs s length → start ≤ s

theorem IsFirstLongest.unique (h : IsFirstLongest gs s l) (h' : IsFirstLongest gs s' l') :
    s = s' ∧ l = l' := by
  have hlength : l = l' := Nat.le_antisymm (h'.longest s l h.isRun) (h.longest s' l' h'.isRun)
  subst hlength
  exact ⟨Nat.le_antisymm (h.first s' h'.isRun) (h'.first s h.isRun), rfl⟩

theorem isZeroRun_zero (gs : List UInt16) (s : Nat) : IsZeroRun gs s 0 :=
  fun _ hi => absurd hi (Nat.not_lt_zero _)

theorem IsZeroRun.add_le (h : IsZeroRun gs s l) (hpos : 0 < l) : s + l ≤ gs.length := by
  obtain ⟨hlast, _⟩ := List.getElem?_eq_some_iff.mp (h (l - 1) (by omega))
  omega

/-! ## Backwards -/

theorem isZeroRun_cons_succ : IsZeroRun (g :: gs) (s + 1) l ↔ IsZeroRun gs s l := by
  simp only [IsZeroRun, Nat.add_right_comm s 1, List.getElem?_cons_succ]

/-- The runs at the start are those within the zeros there. -/
theorem isZeroRun_start_iff : IsZeroRun gs 0 l ↔ l ≤ (gs.takeWhile (· == 0)).length := by
  induction gs generalizing l with
  | nil =>
    constructor
    · intro h
      by_contra hpos
      have hend := h.add_le (Nat.pos_of_ne_zero fun hl => hpos (Nat.le_of_eq hl))
      exact hpos (by simpa using hend)
    · intro h
      rw [Nat.le_zero.mp h]
      exact isZeroRun_zero _ _
  | cons g gs ih =>
    cases l with
    | zero => simp [isZeroRun_zero]
    | succ l =>
      have hcons : IsZeroRun (g :: gs) 0 (l + 1) ↔ g = 0 ∧ IsZeroRun gs 0 l := by
        simp only [IsZeroRun, Nat.zero_add, Nat.forall_lt_succ_left, List.getElem?_cons_zero,
          List.getElem?_cons_succ, Option.some.injEq]
      rw [hcons, ih]
      by_cases hg : g = 0 <;> simp [hg]

theorem isFirstLongest_longestZeroRun (gs : List UInt16) :
    IsFirstLongest gs (longestZeroRun gs).1 (longestZeroRun gs).2 := by
  induction gs with
  | nil =>
    refine ⟨isZeroRun_zero _ _, ?_, fun _ _ => Nat.zero_le _⟩
    intro s l h
    by_contra hpos
    have hend := h.add_le (Nat.lt_of_not_le hpos)
    simp only [List.length_nil] at hend
    exact hpos (by omega)
  | cons g gs ih =>
    rw [longestZeroRun]
    dsimp only
    split
    next hle =>
      refine ⟨isZeroRun_start_iff.mpr (Nat.le_refl _), ?_, fun _ _ => Nat.zero_le _⟩
      intro s l h
      cases s with
      | zero => exact isZeroRun_start_iff.mp h
      | succ s => exact Nat.le_trans (ih.longest s l (isZeroRun_cons_succ.mp h)) hle
    next hlt =>
      refine ⟨isZeroRun_cons_succ.mpr ih.isRun, ?_, ?_⟩
      · intro s l h
        cases s with
        | zero =>
          have hstart := isZeroRun_start_iff.mp h
          omega
        | succ s => exact ih.longest s l (isZeroRun_cons_succ.mp h)
      · intro s h
        cases s with
        | zero => exact absurd (isZeroRun_start_iff.mp h) hlt
        | succ s => exact Nat.succ_le_succ (ih.first s (isZeroRun_cons_succ.mp h))

/-! ## One more group -/

theorem IsZeroRun.append_right (h : IsZeroRun gs s l) (hs : List UInt16) :
    IsZeroRun (gs ++ hs) s l := by
  intro i hi
  obtain ⟨hlt, hzero⟩ := List.getElem?_eq_some_iff.mp (h i hi)
  rw [List.getElem?_append_left hlt, List.getElem?_eq_getElem hlt, hzero]

theorem IsZeroRun.push (h : IsZeroRun gs s l) (hend : s + l = gs.length) :
    IsZeroRun (gs ++ [0]) s (l + 1) := by
  intro i hi
  rcases Nat.lt_succ_iff_lt_or_eq.mp hi with hlt | rfl
  · exact h.append_right [0] i hlt
  · rw [hend, List.getElem?_concat_length]

/-- A run either was there before the last group, or the last group makes an earlier run longer. -/
theorem IsZeroRun.of_concat (h : IsZeroRun (gs ++ [g]) s l) :
    IsZeroRun gs s l ∨
      ∃ k, l = k + 1 ∧ s + k = gs.length ∧ g = 0 ∧ IsZeroRun gs s k := by
  by_cases hend : s + l ≤ gs.length
  · refine .inl fun i hi => ?_
    have hi' := h i hi
    rwa [List.getElem?_append_left (by omega)] at hi'
  · cases l with
    | zero => exact .inl (isZeroRun_zero gs s)
    | succ k =>
      have hlength := h.add_le (Nat.succ_pos k)
      rw [List.length_append, List.length_singleton] at hlength
      have hlast : s + k = gs.length := by omega
      refine .inr ⟨k, rfl, hlast, ?_, ?_⟩
      · have hg := h k (Nat.lt_succ_self k)
        rw [hlast, List.getElem?_concat_length] at hg
        exact Option.some.inj hg
      · intro i hi
        have hi' := h i (by omega)
        rwa [List.getElem?_append_left (by omega)] at hi'

/-- A run at the end that becomes longer than all others. -/
theorem IsFirstLongest.of_push {k : Nat} (hrun : IsZeroRun gs s k) (hend : s + k = gs.length)
    (hlongest : ∀ s l, IsZeroRun gs s l → l ≤ k) : IsFirstLongest (gs ++ [0]) s (k + 1) := by
  refine ⟨hrun.push hend, ?_, ?_⟩
  · intro s' l' h
    rcases h.of_concat with hold | ⟨m, rfl, _, _, hold⟩
    · exact Nat.le_succ_of_le (hlongest s' l' hold)
    · exact Nat.succ_le_succ (hlongest s' m hold)
  · intro s' h
    rcases h.of_concat with hold | ⟨m, hlength, hm, _, _⟩
    · exact absurd (hlongest s' (k + 1) hold) (Nat.not_succ_le_self k)
    · omega

/-- A run at the end that grows, but not beyond the longest. -/
theorem IsFirstLongest.concat_zero {k : Nat} (h : IsFirstLongest gs s l)
    (hends : ∀ s l, IsZeroRun gs s l → s + l = gs.length → l ≤ k) (hk : k < l) :
    IsFirstLongest (gs ++ [0]) s l := by
  refine ⟨h.isRun.append_right [0], ?_, ?_⟩
  · intro s' l' hrun
    rcases hrun.of_concat with hold | ⟨m, rfl, hm, _, hold⟩
    · exact h.longest s' l' hold
    · exact Nat.lt_of_le_of_lt (hends s' m hold hm) hk
  · intro s' hrun
    rcases hrun.of_concat with hold | ⟨m, hlength, hm, _, _⟩
    · exact h.first s' hold
    · -- The longest run lies within the groups before the last, and this one reaches beyond them.
      have hle := h.isRun.add_le (by omega)
      omega

theorem IsZeroRun.of_concat_nonzero (h : IsZeroRun (gs ++ [g]) s l) (hg : g ≠ 0) :
    IsZeroRun gs s l := by
  rcases h.of_concat with hold | ⟨_, _, _, hzero, _⟩
  · exact hold
  · exact absurd hzero hg

theorem IsFirstLongest.concat_nonzero (h : IsFirstLongest gs s l) (hg : g ≠ 0) :
    IsFirstLongest (gs ++ [g]) s l :=
  ⟨h.isRun.append_right [g], fun s' l' hrun => h.longest s' l' (hrun.of_concat_nonzero hg),
    fun s' hrun => h.first s' (hrun.of_concat_nonzero hg)⟩

/-! ## One pass -/

/-- The first of the longest runs so far, and the run that the last group belongs to. -/
structure Pass where
  bestStart : Nat
  bestLength : Nat
  runStart : Nat
  runLength : Nat

/-- Goes on with the group at an index. -/
def Pass.step (t : Pass) (index : Nat) (g : UInt16) : Pass :=
  if g = 0 then
    let runStart := if t.runLength = 0 then index else t.runStart
    let runLength := t.runLength + 1
    if t.bestLength < runLength then ⟨runStart, runLength, runStart, runLength⟩
    else ⟨t.bestStart, t.bestLength, runStart, runLength⟩
  else ⟨t.bestStart, t.bestLength, t.runStart, 0⟩

def onePass (gs : List UInt16) : Pass :=
  gs.zipIdx.foldl (fun t e => t.step e.2 e.1) ⟨0, 0, 0, 0⟩

/-- What a pass knows about the groups that it has seen. -/
structure Pass.Summarises (t : Pass) (gs : List UInt16) : Prop where
  best : IsFirstLongest gs t.bestStart t.bestLength
  isRun : IsZeroRun gs t.runStart t.runLength
  /-- A run that goes on ends with the last group. -/
  ends : 0 < t.runLength → t.runStart + t.runLength = gs.length
  /-- No run that ends there is longer. -/
  whole : ∀ s l, IsZeroRun gs s l → s + l = gs.length → l ≤ t.runLength

namespace Pass.Summarises

variable {t : Pass}

/-- The run that a zero makes longer. -/
theorem exists_run (h : t.Summarises gs) :
    IsZeroRun gs (if t.runLength = 0 then gs.length else t.runStart) t.runLength ∧
      (if t.runLength = 0 then gs.length else t.runStart) + t.runLength = gs.length := by
  split
  next hnone =>
    rw [hnone]
    exact ⟨isZeroRun_zero _ _, rfl⟩
  next hsome => exact ⟨h.isRun, h.ends (Nat.pos_of_ne_zero hsome)⟩

theorem whole_concat_zero (h : t.Summarises gs) :
    ∀ s l, IsZeroRun (gs ++ [0]) s l → s + l = (gs ++ [0]).length → l ≤ t.runLength + 1 := by
  intro s l hrun hlast
  rw [List.length_append, List.length_singleton] at hlast
  rcases hrun.of_concat with hold | ⟨m, rfl, hm, _, hold⟩
  · rcases Nat.eq_zero_or_pos l with rfl | hpos
    · exact Nat.zero_le _
    · have hle := hold.add_le hpos
      omega
  · exact Nat.succ_le_succ (h.whole s m hold hm)

theorem step_zero (h : t.Summarises gs) : (t.step gs.length 0).Summarises (gs ++ [0]) := by
  obtain ⟨hrun, hend⟩ := h.exists_run
  rw [Pass.step, if_pos rfl]
  generalize (if t.runLength = 0 then gs.length else t.runStart) = start at hrun hend ⊢
  have hends : start + (t.runLength + 1) = (gs ++ [0]).length := by
    rw [List.length_append, List.length_singleton]
    omega
  dsimp only
  split
  next hlt =>
    have hlongest : ∀ s l, IsZeroRun gs s l → l ≤ t.runLength := fun s l hold =>
      Nat.le_trans (h.best.longest s l hold) (Nat.le_of_lt_succ hlt)
    exact ⟨.of_push hrun hend hlongest, hrun.push hend, fun _ => hends, h.whole_concat_zero⟩
  next hle =>
    exact ⟨h.best.concat_zero h.whole (Nat.lt_of_not_le fun hge => hle (Nat.lt_succ_of_le hge)),
      hrun.push hend, fun _ => hends, h.whole_concat_zero⟩

theorem step_nonzero (h : t.Summarises gs) (hg : g ≠ 0) :
    (t.step gs.length g).Summarises (gs ++ [g]) := by
  rw [Pass.step, if_neg hg]
  refine ⟨h.best.concat_nonzero hg, isZeroRun_zero _ _, fun hpos => absurd hpos (by simp), ?_⟩
  intro s l hrun hlast
  by_contra hpos
  have hle := (hrun.of_concat_nonzero hg).add_le (Nat.lt_of_not_le hpos)
  rw [List.length_append, List.length_singleton] at hlast
  omega

end Pass.Summarises

theorem onePass_concat (gs : List UInt16) (g : UInt16) :
    onePass (gs ++ [g]) = (onePass gs).step gs.length g := by
  rw [onePass, List.zipIdx_append, List.foldl_append, ← onePass]
  simp only [List.zipIdx_singleton, List.foldl_cons, List.foldl_nil, Nat.zero_add]

theorem onePass_summarises (gs : List UInt16) : (onePass gs).Summarises gs := by
  induction gs using List.reverseRecOn with
  | nil =>
    have hnone := isFirstLongest_longestZeroRun []
    exact ⟨hnone, hnone.isRun, fun _ => rfl, fun s l hl _ => hnone.longest s l hl⟩
  | append_singleton gs g ih =>
    rw [onePass_concat]
    by_cases hg : g = 0
    · rw [hg]
      exact ih.step_zero
    · exact ih.step_nonzero hg

theorem longestZeroRun_eq_onePass (gs : List UInt16) :
    longestZeroRun gs = ((onePass gs).bestStart, (onePass gs).bestLength) := by
  obtain ⟨hstart, hlength⟩ :=
    (isFirstLongest_longestZeroRun gs).unique (onePass_summarises gs).best
  rw [← hstart, ← hlength]

end NetLiteral.Ipv6
