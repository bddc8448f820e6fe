import Mathlib.Data.Fin.Basic
import Mathlib.Data.ZMod.Defs
import Mathlib.Logic.ExistsUnique
import Mathlib.Order.Interval.Finset.Nat
import Mathlib.Tactic.Abel

/-!
# Rounds over a cycle

A cursor moves around a cycle of places. Each move goes to the first live place
after the cursor; which places are live may change between the moves. As long as
a place stays live no move passes over it, so between two visits to one place the
cursor visits every other live place, and only once.

## Main definitions

* `place`, how far a place lies ahead of another one
* `Next`, the first live place after the cursor
* `Rounds`, a cursor that moves now and then

## Main results

* `Rounds.visits_once`
* `Rounds.moves_le`, the cursor comes to every live place in less than a round
-/

namespace LevOS.Foundation

variable {n : ℕ}

/-- How far a place lies ahead of another one. -/
def place (p c : Fin n) : ℕ := (c - p).val

theorem place_lt (p c : Fin n) : place p c < n := (c - p).isLt

variable [NeZero n]

theorem place_self (p : Fin n) : place p p = 0 := by
  rw [place, sub_self, Fin.val_zero]

theorem place_inj {p c c' : Fin n} (h : place p c = place p c') : c = c' :=
  sub_left_injective (Fin.ext h)

/-- To go from `p` to `x`, go to `c`, one further, and from there to `x`, perhaps once
around the cycle. -/
theorem place_trans (p c x : Fin n) :
    place p x = place p c + 1 + place (c + 1) x ∨
      place p x + n = place p c + 1 + place (c + 1) x := by
  have hc := place_lt p c
  have hx := place_lt (c + 1) x
  have hsum : x - p = (c - p) + (1 + (x - (c + 1))) := by abel
  have hval : place p x = (place p c + (1 + place (c + 1) x)) % n := by
    unfold place
    rw [hsum, Fin.val_add, Fin.val_add, Fin.val_one', Nat.mod_add_mod, Nat.add_mod_mod]
  have hassoc : place p c + (1 + place (c + 1) x) = place p c + 1 + place (c + 1) x := by omega
  rw [hassoc] at hval
  by_cases hlt : place p c + 1 + place (c + 1) x < n
  · left
    rw [hval, Nat.mod_eq_of_lt hlt]
  · right
    rw [hval, Nat.mod_eq_sub_mod (Nat.not_lt.mp hlt), Nat.mod_eq_of_lt (by omega)]
    omega

/-- The first live place after the cursor. The cursor's own place comes last. -/
structure Next (live : Fin n → Prop) (c c' : Fin n) : Prop where
  isLive : live c'
  first : ∀ x, live x → place (c + 1) c' ≤ place (c + 1) x

section Moves

variable {live : Fin n → Prop} {c c' p : Fin n}

/-- Seen from a live place, a move that does not end there goes forward, and over no
other live place. -/
theorem Next.forward (h : Next live c c') (hp : live p) (hne : c' ≠ p) :
    place p c < place p c' ∧ ∀ x, live x → place p x ≤ place p c ∨ place p c' ≤ place p x := by
  -- from the cursor to the place itself is the rest of the cycle
  have hback : place p c + 1 + place (c + 1) p = n := by
    have hself := place_self p
    rcases place_trans p c p with heq | heq <;> omega
  -- going further than the place would pass it, although it is live
  have hahead : place p c' = place p c + 1 + place (c + 1) c' := by
    have hfirst := h.first p hp
    rcases place_trans p c c' with heq | heq
    · exact heq
    · exact absurd (place_inj (by rw [place_self]; omega : place p c' = place p p)) hne
  refine ⟨by omega, fun x hx => ?_⟩
  have hfirst := h.first x hx
  have hlt := place_lt (c + 1) x
  rcases place_trans p c x with heq | heq
  · right
    omega
  · left
    omega

/-- A move that ends at a place starts beyond every other live place. -/
theorem Next.back (h : Next live c p) {x : Fin n} (hx : live x) : place p x ≤ place p c := by
  have hself := place_self p
  have hfirst := h.first x hx
  have hlt := place_lt (c + 1) x
  have hpx := place_lt p x
  rcases place_trans p c p with hp | hp <;> rcases place_trans p c x with heq | heq <;> omega

end Moves

/-- A cursor that moves now and then, each time to the first place that is live then. -/
structure Rounds (length : ℕ) (cursor : ℕ → Fin n) (live : ℕ → Fin n → Prop) (moves : ℕ → Prop) :
    Prop where
  move : ∀ t < length, moves t → Next (live t) (cursor t) (cursor (t + 1))
  stay : ∀ t < length, ¬ moves t → cursor (t + 1) = cursor t

namespace Rounds

variable {length : ℕ} {cursor : ℕ → Fin n} {live : ℕ → Fin n → Prop} {moves : ℕ → Prop}

/-- A move that ends at a place, strictly between two moments. -/
def Visit (cursor : ℕ → Fin n) (moves : ℕ → Prop) (q : Fin n) (i j t : ℕ) : Prop :=
  (i < t ∧ t < j) ∧ moves t ∧ cursor (t + 1) = q

/-- While the cursor is away from a live place, another live place is either still
ahead and not visited, or behind and visited once. -/
theorem progress (h : Rounds length cursor live moves) {i j : ℕ} (hj : j ≤ length) {p q : Fin n}
    (hq : q ≠ p) (hstart : cursor (i + 1) = p)
    (haway : ∀ t, i < t → t < j → moves t → cursor (t + 1) ≠ p)
    (hlivep : ∀ t, i < t → t ≤ j → live t p) (hliveq : ∀ t, i < t → t ≤ j → live t q) {t : ℕ}
    (hit : i < t) (htj : t ≤ j) :
    (place p (cursor t) < place p q ∧ ∀ s, ¬ Visit cursor moves q i t s) ∨
      place p q ≤ place p (cursor t) ∧ ∃! s, Visit cursor moves q i t s := by
  induction t, hit using Nat.le_induction with
  | base =>
    left
    rw [hstart, place_self]
    refine ⟨Nat.pos_of_ne_zero fun hzero => ?_, fun s hs => ?_⟩
    · exact hq (place_inj (hzero.trans (place_self p).symm))
    · have := hs.1
      omega
  | succ t hit ih =>
    -- visits before this moment are unaffected by it
    have hearlier {s : ℕ} (hs : s ≠ t) :
        Visit cursor moves q i (t + 1) s ↔ Visit cursor moves q i t s := by
      unfold Visit
      exact and_congr_left fun _ => and_congr_right fun _ => by omega
    have hold := ih (by omega)
    by_cases hmoves : moves t
    · have hnext := h.move t (by omega) hmoves
      have hne := haway t hit (by omega) hmoves
      obtain ⟨hforward, hover⟩ := hnext.forward (hlivep t hit (by omega)) hne
      have hq' := hover q (hliveq t hit (by omega))
      by_cases hhere : cursor (t + 1) = q
      · -- this move is the visit
        right
        rw [hhere] at hforward ⊢
        refine ⟨le_rfl, t, ⟨⟨hit, Nat.lt_succ_self t⟩, hmoves, hhere⟩, fun s hs => ?_⟩
        by_contra hst
        rcases hold with ⟨-, hnone⟩ | ⟨hle, -⟩
        · exact hnone s ((hearlier hst).mp hs)
        · omega
      · -- the move ended somewhere else, before the place or beyond it as before
        have hvisit (s : ℕ) : Visit cursor moves q i (t + 1) s ↔ Visit cursor moves q i t s := by
          by_cases hst : s = t
          · subst hst
            exact ⟨fun hs => absurd hs.2.2 hhere, fun hs => absurd hs.1.2 (lt_irrefl s)⟩
          · exact hearlier hst
        rcases hold with ⟨hlt, hnone⟩ | ⟨hle, hone⟩
        · left
          have hdiffer : place p (cursor (t + 1)) ≠ place p q := fun heq => hhere (place_inj heq)
          exact ⟨by omega, fun s hs => hnone s ((hvisit s).mp hs)⟩
        · right
          exact ⟨by omega, (existsUnique_congr hvisit).mpr hone⟩
    · have hvisit (s : ℕ) : Visit cursor moves q i (t + 1) s ↔ Visit cursor moves q i t s := by
        by_cases hst : s = t
        · subst hst
          exact ⟨fun hs => absurd hs.2.1 hmoves, fun hs => absurd hs.1.2 (lt_irrefl s)⟩
        · exact hearlier hst
      rw [h.stay t (by omega) hmoves, existsUnique_congr hvisit]
      exact hold.imp (fun hl => ⟨hl.1, fun s hs => hl.2 s ((hvisit s).mp hs)⟩) id

/-- Between two visits to a place that stays live, every other place that stays live is
visited once. -/
theorem visits_once (h : Rounds length cursor live moves) {i j : ℕ} (hij : i < j)
    (hj : j < length) {p q : Fin n} (hq : q ≠ p) (hstart : cursor (i + 1) = p) (hmoves : moves j)
    (hend : cursor (j + 1) = p) (haway : ∀ t, i < t → t < j → moves t → cursor (t + 1) ≠ p)
    (hlivep : ∀ t, i < t → t ≤ j → live t p) (hliveq : ∀ t, i < t → t ≤ j → live t q) :
    ∃! t, Visit cursor moves q i j t := by
  have hnext := h.move j hj hmoves
  rw [hend] at hnext
  have hback := hnext.back (hliveq j hij le_rfl)
  rcases h.progress hj.le hq hstart haway hlivep hliveq hij le_rfl with ⟨hlt, -⟩ | ⟨-, hone⟩
  · omega
  · exact hone

/-- Each move that does not end at a live place brings the cursor nearer to it. -/
theorem moves_le [DecidablePred moves] (h : Rounds length cursor live moves) {i j : ℕ}
    (hij : i ≤ j) (hj : j ≤ length) {p : Fin n} (hlive : ∀ t, i ≤ t → t < j → live t p)
    (haway : ∀ t, i ≤ t → t ≤ j → cursor t ≠ p) :
    place p (cursor i) + ((Finset.Ico i j).filter moves).card ≤ place p (cursor j) := by
  induction j, hij using Nat.le_induction with
  | base => simp
  | succ t hit ih =>
    have hbefore := ih (by omega) (fun s his hs => hlive s his (by omega)) fun s his hs =>
      haway s his (by omega)
    rw [Nat.Ico_succ_right_eq_insert_Ico hit, Finset.filter_insert]
    by_cases hmoves : moves t
    · have hnext := h.move t hj hmoves
      have hforward := (hnext.forward (hlive t hit (Nat.lt_succ_self t))
        (haway (t + 1) (by omega) le_rfl)).1
      rw [if_pos hmoves, Finset.card_insert_of_notMem (by simp)]
      omega
    · rwa [if_neg hmoves, h.stay t hj hmoves]

end Rounds

end LevOS.Foundation
