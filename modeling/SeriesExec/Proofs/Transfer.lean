import SeriesExec.Proofs.Steps

/-!
# Transfers — how deliveries go from place to place

Whatever happens to a cluster, it accepts some deliveries, or it moves one delivery to the next of
its places.  This file defines:

* `Traffic.Accepts` — new deliveries come to the queues of their units, numbered on;
* `Traffic.Transfer` — everything that an event does to the deliveries, together with the delivery
  that it hands to a driver;
* `Traffic.Numbered` — each number below the count of accepted deliveries is that of exactly one
  delivery, in exactly one place.

Main statements: a transfer keeps all deliveries (`Transfer.deliveries_perm`), so it keeps their
numbering (`Transfer.numbered`), and it hands a delivery to a driver exactly when it brings it to a
worker (`Transfer.called_perm`).
-/

namespace SeriesExec
namespace Traffic

variable {τ τ' τ'' : Traffic}

/-- The deliveries `new` have come to the queues of their units. -/
structure Accepts (τ τ' : Traffic) (new : List Delivery) : Prop where
  orderly : τ'.Orderly
  queued : τ'.queued.Perm (τ.queued ++ new)
  pooled : τ'.pooled.Perm τ.pooled
  underway : τ'.underway = τ.underway
  finished : τ'.finished = τ.finished
  numbered : new.map Delivery.id = List.range' τ.accepted new.length
  accepted : τ'.accepted = τ.accepted + new.length

theorem Accepts.refl (h : τ.Orderly) : Accepts τ τ [] where
  orderly := h
  queued := by rw [List.append_nil]
  pooled := List.Perm.refl _
  underway := rfl
  finished := rfl
  numbered := rfl
  accepted := rfl

theorem Accepts.trans {new new' : List Delivery} (h : Accepts τ τ' new)
    (h' : Accepts τ' τ'' new') : Accepts τ τ'' (new ++ new') where
  orderly := h'.orderly
  queued := by
    rw [← List.append_assoc]
    exact h'.queued.trans (h.queued.append_right new')
  pooled := h'.pooled.trans h.pooled
  underway := h'.underway.trans h.underway
  finished := h'.finished.trans h.finished
  numbered := by
    rw [List.map_append, h.numbered, h'.numbered, h.accepted, List.length_append,
      List.range'_append_1]
  accepted := by rw [h'.accepted, h.accepted, List.length_append, Nat.add_assoc]

/-- What an event does to the deliveries; the last two arguments are the deliveries that come in and
the one for which a driver is called. -/
inductive Transfer (τ τ' : Traffic) : List Delivery → Option Delivery → Prop where
  /-- Deliveries come to the queues of units. -/
  | accept (new : List Delivery) (haccepts : Accepts τ τ' new) : Transfer τ τ' new none
  /-- A delivery ends without having come to a worker. -/
  | reject (e : Ending) (hfate : e.fate ≠ .executed)
      (hqueued : τ.queued.Perm (e.delivery :: τ'.queued)) (hpooled : τ'.pooled.Perm τ.pooled)
      (hunderway : τ'.underway = τ.underway) (hfinished : τ'.finished = τ.finished ++ [e])
      (haccepted : τ'.accepted = τ.accepted) : Transfer τ τ' [] none
  /-- A delivery comes to the workers of its engine. -/
  | submit (d : Delivery) (hqueued : τ.queued.Perm (d :: τ'.queued))
      (hpooled : τ'.pooled.Perm (d :: τ.pooled)) (hunderway : τ'.underway = τ.underway)
      (hfinished : τ'.finished = τ.finished) (haccepted : τ'.accepted = τ.accepted) :
      Transfer τ τ' [] none
  /-- A worker takes a delivery and calls the driver for it. -/
  | start (d : Delivery) (hqueued : τ'.queued = τ.queued)
      (hpooled : τ.pooled.Perm (d :: τ'.pooled)) (hunderway : τ'.underway = τ.underway ++ [d])
      (hfinished : τ'.finished = τ.finished) (haccepted : τ'.accepted = τ.accepted) :
      Transfer τ τ' [] (some d)
  /-- A worker ends a delivery, and copies of its task come to other units. -/
  | finish (e : Ending) (new : List Delivery) (hfate : e.fate = .executed)
      (hqueued : τ'.queued.Perm (τ.queued ++ new)) (hpooled : τ'.pooled.Perm τ.pooled)
      (hunderway : τ.underway.Perm (e.delivery :: τ'.underway))
      (hfinished : τ'.finished = τ.finished ++ [e])
      (hnumbered : new.map Delivery.id = List.range' τ.accepted new.length)
      (haccepted : τ'.accepted = τ.accepted + new.length) : Transfer τ τ' new none

variable {new : List Delivery} {given : Option Delivery}

/-- The deliveries that come in are numbered on. -/
theorem Transfer.new_numbered (h : Transfer τ τ' new given) :
    new.map Delivery.id = List.range' τ.accepted new.length ∧
      τ'.accepted = τ.accepted + new.length := by
  cases h with
  | accept _ haccepts => exact ⟨haccepts.numbered, haccepts.accepted⟩
  | reject _ _ _ _ _ _ haccepted => exact ⟨rfl, haccepted⟩
  | submit _ _ _ _ _ haccepted => exact ⟨rfl, haccepted⟩
  | start _ _ _ _ _ haccepted => exact ⟨rfl, haccepted⟩
  | finish _ _ _ _ _ _ _ hnumbered haccepted => exact ⟨hnumbered, haccepted⟩

/-- The deliveries that come in come to the queues of units. -/
theorem Transfer.new_subset (h : Transfer τ τ' new given) : new ⊆ τ'.queued := by
  cases h with
  | accept _ haccepts =>
    exact fun d hd => haccepts.queued.mem_iff.mpr (List.mem_append_right _ hd)
  | finish _ _ _ hqueued =>
    exact fun d hd => hqueued.mem_iff.mpr (List.mem_append_right _ hd)
  | _ => exact List.nil_subset _

/-- What is over stays over. -/
theorem Transfer.past_sublist (h : Transfer τ τ' new given) : τ.past.Sublist τ'.past := by
  -- An ending is put after those before it.
  have happend : ∀ e : Ending, τ'.finished = τ.finished ++ [e] → τ.past.Sublist τ'.past :=
    fun e he => by
      rw [past, past, he, List.map_append]
      exact List.sublist_append_left _ _
  cases h with
  | accept _ haccepts => rw [past, past, haccepts.finished]
  | reject e _ _ _ _ hfinished => exact happend e hfinished
  | submit _ _ _ _ hfinished => rw [past, past, hfinished]
  | start _ _ _ _ hfinished => rw [past, past, hfinished]
  | finish e _ _ _ _ _ hfinished => exact happend e hfinished

/-- One delivery ends at a time. -/
theorem Transfer.finished_length_le (h : Transfer τ τ' new given) :
    τ'.finished.length ≤ τ.finished.length + 1 := by
  cases h with
  | accept _ haccepts => rw [haccepts.finished]; exact Nat.le_succ _
  | reject e _ _ _ _ hfinished => rw [hfinished, List.length_append]; exact Nat.le_refl _
  | submit _ _ _ _ hfinished => rw [hfinished]; exact Nat.le_succ _
  | start _ _ _ _ hfinished => rw [hfinished]; exact Nat.le_succ _
  | finish e _ _ _ _ _ hfinished => rw [hfinished, List.length_append]; exact Nat.le_refl _

/-- No delivery is lost, and none comes in but those that are accepted. -/
theorem Transfer.deliveries_perm (h : Transfer τ τ' new given) :
    τ'.deliveries.Perm (τ.deliveries ++ new) := by
  -- Two lists are permutations of each other if they have each delivery equally often, so each case
  -- is a sum over the four places.
  simp only [deliveries, past, List.perm_iff_count, List.count_append]
  intro a
  cases h with
  | accept new haccepts =>
    have hqueued := haccepts.queued.count_eq a
    rw [List.count_append] at hqueued
    rw [hqueued, haccepts.pooled.count_eq a, haccepts.underway, haccepts.finished]
    omega
  | reject e hfate hqueued hpooled hunderway hfinished haccepted =>
    rw [hqueued.count_eq a, hpooled.count_eq a, hunderway, hfinished]
    simp only [List.map_append, List.count_append, List.map_cons, List.map_nil, List.count_cons,
      List.count_nil]
    omega
  | submit d hqueued hpooled hunderway hfinished haccepted =>
    rw [hqueued.count_eq a, hpooled.count_eq a, hunderway, hfinished]
    simp only [List.count_cons, List.count_nil]
    omega
  | start d hqueued hpooled hunderway hfinished haccepted =>
    rw [hqueued, hpooled.count_eq a, hunderway, hfinished]
    simp only [List.count_append, List.count_cons, List.count_nil]
    omega
  | finish e new hfate hqueued hpooled hunderway hfinished hnumbered haccepted =>
    have hqueued := hqueued.count_eq a
    rw [List.count_append] at hqueued
    rw [hqueued, hpooled.count_eq a, hunderway.count_eq a, hfinished]
    simp only [List.map_append, List.count_append, List.map_cons, List.map_nil, List.count_cons,
      List.count_nil]
    omega

/-- Each number below the count of accepted deliveries is that of one delivery in one place. -/
def Numbered (τ : Traffic) : Prop :=
  (τ.deliveries.map Delivery.id).Perm (List.range τ.accepted)

theorem Transfer.numbered (h : Transfer τ τ' new given) (hnumbered : τ.Numbered) :
    τ'.Numbered := by
  rcases h.new_numbered with ⟨hnew, haccepted⟩
  calc
    List.Perm (τ'.deliveries.map Delivery.id) ((τ.deliveries ++ new).map Delivery.id) :=
      h.deliveries_perm.map Delivery.id
    List.Perm _ (List.range τ.accepted ++ new.map Delivery.id) := by
      rw [List.map_append]
      exact hnumbered.append_right _
    -- The numbers go on where they stopped.
    _ = List.range τ'.accepted := by
      rw [hnew, haccepted, List.range_add, List.range'_eq_map_range]

theorem Numbered.nodup (h : τ.Numbered) : (τ.deliveries.map Delivery.id).Nodup :=
  h.nodup_iff.mpr List.nodup_range

/-- The deliveries for which a driver has been called: a worker is busy with them, or they have
ended after that. -/
def called (τ : Traffic) : List Delivery :=
  τ.underway ++ (τ.finished.filter fun e => e.fate == .executed).map Ending.delivery

/-- A driver is called for a delivery exactly when a worker takes it. -/
theorem Transfer.called_perm (h : Transfer τ τ' new given) :
    τ'.called.Perm (τ.called ++ given.toList) := by
  -- Only a start brings in a delivery, and an end keeps it: it goes from one part to the other.
  simp only [called, List.perm_iff_count, List.count_append]
  intro a
  cases h with
  | accept new haccepts =>
    rw [haccepts.underway, haccepts.finished]
    simp
  | reject e hfate hqueued hpooled hunderway hfinished haccepted =>
    rw [hunderway, hfinished]
    -- What a loop refuses has come to no driver.
    simp [hfate]
  | submit d hqueued hpooled hunderway hfinished haccepted =>
    rw [hunderway, hfinished]
    simp
  | start d hqueued hpooled hunderway hfinished haccepted =>
    rw [hunderway, hfinished]
    simp only [List.count_append, Option.toList_some]
    omega
  | finish e new hfate hqueued hpooled hunderway hfinished hnumbered haccepted =>
    rw [hunderway.count_eq a, hfinished]
    simp only [List.filter_append, List.filter_cons, hfate, beq_self_eq_true, if_true,
      List.filter_nil, List.map_append, List.map_cons, List.map_nil, List.count_append,
      List.count_cons, List.count_nil, Option.toList_none]
    omega

end Traffic
end SeriesExec
