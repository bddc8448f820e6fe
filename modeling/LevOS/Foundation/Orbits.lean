import Mathlib.Data.Finset.Card
import Mathlib.Data.List.Nodup
import Mathlib.Data.Nat.Find

/-!
# Following a partial function

Links that lead from one place to the next form a partial function. Following it from a
place gives a trail, which may end. A trail that comes back to a place it has been to
never ends, and among finitely many places a long trail must come back.

## Main definitions

* `follow`, where a number of steps leads
* `trail`, the places passed on the way
* `Returns`, the number of places after which a trail first comes back

## Main results

* `trail_isSome_of_not_nodup`, a trail that comes back does not end
* `not_nodup_of_card_lt`, a trail longer than the places there are comes back
* `trail_nodup_iff`, a trail is without repetition up to where it first comes back
-/

namespace LevOS.Foundation

variable {α : Type*} {step : α → Option α} {a : α}

/-- Where `n` steps lead. -/
def follow (step : α → Option α) : Nat → α → Option α
  | 0, a => some a
  | n + 1, a => (step a).bind (follow step n)

/-- The first `n` places of a trail. -/
def trail (step : α → Option α) : Nat → α → Option (List α)
  | 0, _ => some []
  | 1, a => some [a]
  | n + 2, a => (step a).bind fun b => (trail step (n + 1) b).map (a :: ·)

theorem follow_add (m n : Nat) : follow step (m + n) a = (follow step m a).bind (follow step n) := by
  induction m generalizing a with
  | zero => rw [Nat.zero_add, follow, Option.bind_some]
  | succ m ih =>
    rw [Nat.add_right_comm, follow, follow, Option.bind_assoc]
    congr 1
    funext b
    exact ih

/-- Fewer steps lead somewhere if more do. -/
theorem follow_isSome_of_le {m n : Nat} (hle : m ≤ n) (h : (follow step n a).isSome) :
    (follow step m a).isSome := by
  obtain ⟨k, rfl⟩ := Nat.exists_eq_add_of_le hle
  rw [follow_add] at h
  cases hm : follow step m a with
  | none => simp [hm] at h
  | some => rfl

/-- After coming back to a place the steps go on forever. -/
theorem follow_isSome_of_repeat {i j : Nat} (hlt : i < j)
    (hback : follow step i a = follow step j a) (h : (follow step j a).isSome) (n : Nat) :
    (follow step n a).isSome := by
  induction n using Nat.strong_induction_on with
  | _ n ih =>
    by_cases hle : n ≤ j
    · exact follow_isSome_of_le hle h
    · -- from the second visit on, the steps are those from the first one
      have hsplit : n = j + (n - j) := by omega
      have hshort : follow step n a = follow step (i + (n - j)) a := by
        rw [hsplit, follow_add, ← hback, ← follow_add]
        congr 1
        omega
      rw [hshort]
      exact ih (i + (n - j)) (by omega)

theorem trail_isSome_iff (n : Nat) : (trail step (n + 1) a).isSome ↔ (follow step n a).isSome := by
  induction n generalizing a with
  | zero => rfl
  | succ n ih =>
    rw [trail, follow]
    cases step a with
    | none => rfl
    | some b => simpa using ih

/-- The places of a trail are where the steps lead. -/
theorem trail_getElem? {n : Nat} {places : List α} (h : trail step n a = some places) {i : Nat}
    (hi : i < n) : places[i]? = follow step i a := by
  fun_induction trail step n a generalizing places i with
  | case1 => exact absurd hi (Nat.not_lt_zero i)
  | case2 a =>
    obtain rfl := Option.some.inj h
    obtain rfl : i = 0 := by omega
    rfl
  | case3 n a ih =>
    obtain ⟨b, hb, hmap⟩ := Option.bind_eq_some_iff.mp h
    obtain ⟨rest, hrest, rfl⟩ := Option.map_eq_some_iff.mp hmap
    cases i with
    | zero => rfl
    | succ i => rw [List.getElem?_cons_succ, ih b hrest (by omega), follow, hb, Option.bind_some]

theorem trail_length {n : Nat} {places : List α} (h : trail step n a = some places) :
    places.length = n := by
  fun_induction trail step n a generalizing places with
  | case1 => rw [← Option.some.inj h]; rfl
  | case2 => rw [← Option.some.inj h]; rfl
  | case3 n a ih =>
    obtain ⟨b, -, hmap⟩ := Option.bind_eq_some_iff.mp h
    obtain ⟨rest, hrest, rfl⟩ := Option.map_eq_some_iff.mp hmap
    rw [List.length_cons, ih b hrest]

/-- What holds of the first place and is kept by the steps holds of all places. -/
theorem trail_forall {P : α → Prop} (hstep : ∀ a b, P a → step a = some b → P b) {n : Nat}
    {places : List α} (h : trail step n a = some places) (ha : P a) : ∀ b ∈ places, P b := by
  fun_induction trail step n a generalizing places with
  | case1 =>
    obtain rfl := Option.some.inj h
    simp
  | case2 a =>
    obtain rfl := Option.some.inj h
    simpa using ha
  | case3 n a ih =>
    obtain ⟨b, hb, hmap⟩ := Option.bind_eq_some_iff.mp h
    obtain ⟨rest, hrest, rfl⟩ := Option.map_eq_some_iff.mp hmap
    intro c hc
    rcases List.mem_cons.mp hc with rfl | hc
    · exact ha
    · exact ih b hrest (hstep a b ha hb) c hc

/-- A shorter trail is the beginning of a longer one. -/
theorem trail_take {m n : Nat} (hle : m ≤ n) {places : List α} (h : trail step n a = some places) :
    trail step m a = some (places.take m) := by
  fun_induction trail step n a generalizing places m with
  | case1 =>
    obtain rfl := Option.some.inj h
    obtain rfl : m = 0 := by omega
    rfl
  | case2 a =>
    obtain rfl := Option.some.inj h
    match m, hle with
    | 0, _ => rfl
    | 1, _ => rfl
  | case3 n a ih =>
    obtain ⟨b, hb, hmap⟩ := Option.bind_eq_some_iff.mp h
    obtain ⟨rest, hrest, rfl⟩ := Option.map_eq_some_iff.mp hmap
    match m with
    | 0 => rfl
    | 1 => rfl
    | m + 2 =>
      rw [trail, hb, Option.bind_some, ih b (by omega) hrest]
      rfl

/-- A trail that comes back to a place never ends. -/
theorem trail_isSome_of_not_nodup {n : Nat} {places : List α} (h : trail step n a = some places)
    (hback : ¬ places.Nodup) (m : Nat) : (trail step m a).isSome := by
  rw [List.nodup_iff_getElem?_ne_getElem?] at hback
  push Not at hback
  -- two visits of one place
  obtain ⟨i, j, hlt, hj, heq⟩ := hback
  rw [trail_length h] at hj
  rw [trail_getElem? h (hlt.trans hj), trail_getElem? h hj] at heq
  have hsome : (follow step j a).isSome := by
    rw [← trail_getElem? h hj, List.getElem?_eq_getElem (by rwa [trail_length h])]
    rfl
  cases m with
  | zero => rfl
  | succ m => exact (trail_isSome_iff m).mpr (follow_isSome_of_repeat hlt heq hsome m)

/-- More places than there are cannot be distinct. -/
theorem not_nodup_of_card_lt [DecidableEq α] {places : List α} {among : Finset α}
    (hmem : ∀ b ∈ places, b ∈ among) (hlt : among.card < places.length) : ¬ places.Nodup := by
  intro hnodup
  have hsub : places.toFinset ⊆ among := fun b hb => hmem b (List.mem_toFinset.mp hb)
  have hcard := Finset.card_le_card hsub
  rw [List.toFinset_card_of_nodup hnodup] at hcard
  exact absurd hcard (Nat.not_le.mpr hlt)

/-- A trail comes back after `n` different places. -/
def Returns (step : α → Option α) (a : α) (n : Nat) : Prop :=
  ∃ places b, trail step n a = some places ∧ places.Nodup ∧ follow step n a = some b ∧ b ∈ places

/-- The places of a trail are different up to where it first comes back. -/
theorem trail_nodup_iff {n : Nat} {places : List α} (h : trail step n a = some places) :
    places.Nodup ↔ ∀ r, Returns step a r → n ≤ r := by
  have hlength := trail_length h
  constructor
  · rintro hnodup r ⟨before, b, hbefore, -, hfollow, hmem⟩
    by_contra hlt
    rw [not_le] at hlt
    -- the place after the first `r` is one of them
    obtain rfl := Option.some.inj ((trail_take hlt.le h).symm.trans hbefore)
    obtain ⟨i, hi⟩ := List.mem_iff_getElem?.mp hmem
    have hir : i < r := by
      have := (List.getElem?_eq_some_iff.mp hi).1
      rw [List.length_take] at this
      omega
    rw [List.getElem?_take_of_lt hir] at hi
    refine List.nodup_iff_getElem?_ne_getElem?.mp hnodup i r hir (by omega) ?_
    rw [hi, trail_getElem? h hlt, hfollow]
  · -- otherwise some place is the first that has been passed before
    intro hfirst
    by_contra hback
    rw [List.nodup_iff_getElem?_ne_getElem?] at hback
    push Not at hback
    have hrepeats : ∃ j, j < n ∧ ∃ i < j, places[i]? = places[j]? := by
      obtain ⟨i, j, hlt, hj, heq⟩ := hback
      exact ⟨j, by omega, i, hlt, heq⟩
    classical
    -- the first place that has been passed before
    obtain ⟨hj, i, hlt, heq⟩ := Nat.find_spec hrepeats
    have hmin := fun m => Nat.find_min hrepeats (m := m)
    generalize Nat.find hrepeats = j at hj hlt heq hmin
    have hbound : j < places.length := by omega
    refine absurd (hfirst j ⟨places.take j, places[j], trail_take hj.le h, ?_, ?_, ?_⟩)
      (Nat.not_le.mpr hj)
    · rw [List.nodup_iff_getElem?_ne_getElem?]
      intro k m hkm hm hsame
      rw [List.length_take] at hm
      rw [List.getElem?_take_of_lt (by omega), List.getElem?_take_of_lt (by omega)] at hsame
      exact hmin m (by omega) ⟨by omega, k, hkm, hsame⟩
    · rw [← trail_getElem? h hj, List.getElem?_eq_getElem]
    · rw [List.mem_iff_getElem?]
      refine ⟨i, ?_⟩
      rw [List.getElem?_take_of_lt hlt, heq, List.getElem?_eq_getElem]

/-- A trail that has come back goes on forever. -/
theorem Returns.trail_isSome {r : Nat} (h : Returns step a r) (m : Nat) :
    (trail step m a).isSome := by
  obtain ⟨_, b, -, -, hfollow, -⟩ := id h
  have hmore : (trail step (r + 1) a).isSome := by
    rw [trail_isSome_iff, hfollow]
    rfl
  obtain ⟨around, haround⟩ := Option.isSome_iff_exists.mp hmore
  have hback : ¬ around.Nodup := by
    rw [trail_nodup_iff haround]
    exact fun hfirst => absurd (hfirst r h) (Nat.not_succ_le_self r)
  exact trail_isSome_of_not_nodup haround hback m

end LevOS.Foundation
