import Mathlib.Algebra.BigOperators.Intervals
import Mathlib.Algebra.Order.BigOperators.Group.Finset
import Mathlib.Logic.Relation

/-! # Flow control by a credit window

A sender numbers the items it sends and charges each against a window until the
receiver reports it consumed. Sending, delivery, consumption, the report of a
consumption and its arrival lag behind one another arbitrarily. The charge covers
everything the receiver has not consumed, and it shrinks to the items sent after
the last report once that report has arrived.
-/

namespace Synctick

open Finset

/-- The counters of a window; `reports` are in flight, the oldest first. -/
structure CreditWindow where
  sent : Nat := 0
  consumed : Nat := 0
  reported : Nat := 0
  reports : List Nat := []
  released : Nat := 0

namespace CreditWindow

variable (size : Nat → Nat) (limit : Nat)

/-- The total size of the items from `first` up to `last`. -/
def total (first last : Nat) : Nat := ∑ item ∈ Ico first last, size item

/-- What the sender accounts for. -/
def charge (window : CreditWindow) : Nat := total size window.released window.sent

/-- What the receiver may still have to hold. -/
def backlog (window : CreditWindow) : Nat := total size window.consumed window.sent

inductive Step : CreditWindow → CreditWindow → Prop
  | send {window : CreditWindow} (room : charge size window + size window.sent ≤ limit) :
      Step window { window with sent := window.sent + 1 }
  | consume {window : CreditWindow} (some : window.consumed < window.sent) :
      Step window { window with consumed := window.consumed + 1 }
  | report {window : CreditWindow} :
      Step window { window with
        reported := window.consumed, reports := window.reports ++ [window.consumed] }
  | release {window : CreditWindow} {count : Nat} {later : List Nat}
      (first : window.reports = count :: later) :
      Step window { window with reports := later, released := count }

/-- The counters lag behind one another in order, and the charge is within the limit. -/
structure Sound (window : CreditWindow) : Prop where
  ordered : (window.released :: window.reports).IsChain (· ≤ ·)
  last : (window.released :: window.reports).getLast (List.cons_ne_nil _ _) = window.reported
  reported : window.reported ≤ window.consumed
  consumed : window.consumed ≤ window.sent
  charged : charge size window ≤ limit

variable {size : Nat → Nat} {limit : Nat}

theorem total_succ {first last : Nat} (ordered : first ≤ last) :
    total size first (last + 1) = total size first last + size last :=
  sum_Ico_succ_top ordered size

theorem total_split {first middle last : Nat} (left : first ≤ middle) (right : middle ≤ last) :
    total size first middle + total size middle last = total size first last :=
  sum_Ico_consecutive size left right

@[simp] theorem total_self (count : Nat) : total size count count = 0 := by
  rw [total, Ico_self, sum_empty]

theorem total_le {first first' last : Nat} (later : first ≤ first') :
    total size first' last ≤ total size first last :=
  sum_le_sum_of_subset_of_nonneg (Ico_subset_Ico_left later) fun _ _ _ => Nat.zero_le _

theorem Sound.released_le {window : CreditWindow} (sound : Sound size limit window) :
    window.released ≤ window.reported := by
  have chain := List.isChain_iff_pairwise.mp sound.ordered
  rw [← sound.last]
  cases reports : window.reports with
  | nil => simp
  | cons count later =>
      rw [reports] at chain
      exact (List.pairwise_cons.mp chain).1 _ (List.getLast_mem (List.cons_ne_nil count later))

/-- What was not consumed is charged. -/
theorem Sound.backlog_le {window : CreditWindow} (sound : Sound size limit window) :
    backlog size window ≤ charge size window :=
  total_le (Nat.le_trans sound.released_le sound.reported)

/-- Once no report is in flight, what is charged was sent after the last one. -/
theorem Sound.charge_of_quiet {window : CreditWindow} (sound : Sound size limit window)
    (quiet : window.reports = []) : charge size window = total size window.reported window.sent := by
  have last := sound.last
  simp only [quiet, List.getLast_singleton] at last
  rw [charge, last]

theorem sound_initial : Sound size limit {} where
  ordered := .singleton 0
  last := rfl
  reported := Nat.le_refl 0
  consumed := Nat.le_refl 0
  charged := by
    rw [charge, total_self]
    exact Nat.zero_le limit

theorem sound_step {window next : CreditWindow} (sound : Sound size limit window)
    (step : Step size limit window next) : Sound size limit next := by
  have behind := sound.released_le
  cases step with
  | send room =>
      refine { sound with consumed := Nat.le_succ_of_le sound.consumed, charged := ?_ }
      have before : window.released ≤ window.sent :=
        Nat.le_trans behind (Nat.le_trans sound.reported sound.consumed)
      change total size window.released (window.sent + 1) ≤ limit
      rw [total_succ before]
      exact room
  | consume some =>
      exact { sound with reported := Nat.le_succ_of_le sound.reported, consumed := some }
  | report =>
      refine { sound with ordered := ?_, last := ?_, reported := Nat.le_refl _ }
      · rw [← List.cons_append, List.isChain_append]
        refine ⟨sound.ordered, .singleton _, ?_⟩
        intro left member right last
        rw [List.getLast?_eq_getLast_of_ne_nil (List.cons_ne_nil _ _), sound.last] at member
        cases member
        cases last
        exact sound.reported
      · simp only [← List.cons_append, List.getLast_append_singleton]
  | @release count later first =>
      have ordered := sound.ordered
      have last := sound.last
      simp only [first] at ordered last
      rw [List.isChain_cons_cons] at ordered
      refine { sound with ordered := ordered.2, last := ?_, charged := ?_ }
      · rw [List.getLast_cons (List.cons_ne_nil _ _)] at last
        exact last
      · exact Nat.le_trans (total_le ordered.1) sound.charged

/-- Every run keeps the window sound. -/
theorem sound_run {window next : CreditWindow} (sound : Sound size limit window)
    (run : Relation.ReflTransGen (Step size limit) window next) : Sound size limit next := by
  induction run with
  | refl => exact sound
  | tail _ step ih => exact sound_step ih step

/-- Several items are sent one after the other when they fit together. -/
theorem run_sends {window : CreditWindow} (sound : Sound size limit window) {sent : Nat}
    (more : window.sent ≤ sent) (fit : total size window.released sent ≤ limit) :
    Relation.ReflTransGen (Step size limit) window { window with sent } := by
  induction sent with
  | zero =>
      have none : window.sent = 0 := Nat.le_zero.mp more
      rw [← none]
  | succ sent ih =>
      by_cases all : window.sent = sent + 1
      · rw [← all]
      · have before : window.released ≤ window.sent :=
          Nat.le_trans sound.released_le (Nat.le_trans sound.reported sound.consumed)
        have fewer : window.sent ≤ sent := by omega
        rw [total_succ (Nat.le_trans before fewer)] at fit
        refine (ih fewer (by omega)).tail ?_
        exact Step.send fit

end CreditWindow

end Synctick
