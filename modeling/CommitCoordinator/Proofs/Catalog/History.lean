import CommitCoordinator.Proofs.Collection.Concatenation
import CommitCoordinator.Proofs.Coordinator.Protocol
import Mathlib.Data.List.Induction

/-!
# Histories of several coordinators

A history interleaves the calls of any number of parties in any order. As long as every party
keeps to the protocol and no snapshot is drawn twice, every snapshot is asked for at most once in
the whole history, and a manifest is only ever stored by the party whose request it describes.
-/

namespace CommitCoordinator

/-- The calls of several parties in the order in which they were answered. -/
abbrev History :=
  List (Nat × Exchange)

namespace History

/-- The calls of one party. -/
def said (party : Nat) (history : History) : List Exchange :=
  (history.filter (·.1 = party)).map Prod.snd

/-- The snapshots drawn by all parties. -/
def drawn (history : History) : List Uuid :=
  history.flatMap (·.2.drawn)

/-- The parts of all requests. -/
def asked (history : History) : List PartitionAppend :=
  history.flatMap (·.2.asked)

/-- The parts of all requests that were accepted. -/
def accepted (history : History) : List PartitionAppend :=
  history.flatMap (·.2.accepted)

/-- All manifests that were stored. -/
def inserted (history : History) : List Manifest :=
  history.flatMap (·.2.inserted)

theorem accepted_concat (history : History) (party : Nat) (exchange : Exchange) :
    accepted (history ++ [(party, exchange)]) = history.accepted ++ exchange.accepted := by
  rw [accepted, List.flatMap_append, List.flatMap_singleton]
  rfl

theorem inserted_concat (history : History) (party : Nat) (exchange : Exchange) :
    inserted (history ++ [(party, exchange)]) = history.inserted ++ exchange.inserted := by
  rw [inserted, List.flatMap_append, List.flatMap_singleton]
  rfl

theorem accepted_sublist_asked (history : History) : history.accepted.Sublist history.asked :=
  List.Sublist.flatMap_right _ fun entry _ ↦ entry.2.accepted_sublist_asked

theorem said_append (party : Nat) (front back : History) :
    said party (front ++ back) = said party front ++ said party back := by
  rw [said, List.filter_append, List.map_append]
  rfl

@[simp] theorem said_cons_self (party : Nat) (exchange : Exchange) (rest : History) :
    said party ((party, exchange) :: rest) = exchange :: said party rest := by
  simp [said]

theorem said_cons_of_ne {party other : Nat} (h : other ≠ party) (exchange : Exchange)
    (rest : History) : said party ((other, exchange) :: rest) = said party rest := by
  simp [said, h]

@[simp] theorem mem_said {party : Nat} {exchange : Exchange} {history : History} :
    exchange ∈ said party history ↔ (party, exchange) ∈ history := by
  simp [said]

theorem flatMap_said_sublist {β : Type} (party : Nat) (f : Exchange → List β) (history : History) :
    ((said party history).flatMap f).Sublist (history.flatMap fun entry ↦ f entry.2) := by
  rw [said, List.flatMap_map]
  exact List.filter_sublist.flatMap _

/-- The last call of a party has nothing of the same party behind it. -/
theorem said_eq_concat {party : Nat} {exchange : Exchange} {front : List Exchange}
    {history : History} (h : said party history = front ++ [exchange]) :
    ∃ earlier later, history = earlier ++ (party, exchange) :: later ∧ said party later = [] := by
  induction history using List.reverseRecOn with
  | nil => simp [said] at h
  | append_singleton rest entry ih =>
    obtain ⟨other, last⟩ := entry
    rw [said_append] at h
    by_cases hparty : other = party
    · subst hparty
      rw [said_cons_self] at h
      obtain ⟨-, hlast⟩ := List.append_inj' h rfl
      cases hlast
      exact ⟨rest, [], rfl, rfl⟩
    · rw [said_cons_of_ne hparty] at h
      obtain ⟨earlier, later, rfl, hlater⟩ := ih (by simpa [said] using h)
      refine ⟨earlier, later ++ [(other, last)], by simp, ?_⟩
      rw [said_append, hlater, said_cons_of_ne hparty]
      rfl

/-! ## Parties that keep to the protocol -/

/-- Whether every party keeps to the protocol. -/
def Orderly (history : History) : Prop :=
  ∀ party, (⟨[], none⟩ : Standing).Orderly (said party history)

theorem Orderly.left {front back : History} (h : Orderly (front ++ back)) : Orderly front := by
  intro party
  have hparty := h party
  rw [said_append, Standing.orderly_append] at hparty
  exact hparty.1

/-- A party asks only for what it has drawn itself. -/
theorem Orderly.mem_drawn {history : History} (h : Orderly history) {party : Nat}
    {exchange : Exchange} (hmem : (party, exchange) ∈ history) {id : Uuid}
    (hid : id ∈ exchange.asked.flatMap PartitionAppend.snapshots) :
    ∃ draw, (party, draw) ∈ history ∧ id ∈ draw.drawn := by
  have hasked : id ∈ ((said party history).flatMap Exchange.asked).flatMap
      PartitionAppend.snapshots := by
    rw [List.flatMap_assoc]
    exact List.mem_flatMap.2 ⟨exchange, mem_said.2 hmem, hid⟩
  obtain ⟨draw, hdraw, hid⟩ := List.mem_flatMap.1 ((h party).asked_sublist.subset hasked)
  exact ⟨draw, mem_said.1 hdraw, hid⟩

/-- If no snapshot is drawn twice, then none is asked for twice. -/
theorem Orderly.nodup_asked {history : History} (h : Orderly history)
    (hfresh : history.drawn.Nodup) :
    (history.asked.flatMap PartitionAppend.snapshots).Nodup := by
  induction history using List.reverseRecOn with
  | nil => exact List.nodup_nil
  | append_singleton rest entry ih =>
    obtain ⟨party, exchange⟩ := entry
    have hrest : (drawn rest).Nodup := by
      rw [drawn, List.flatMap_append] at hfresh
      exact hfresh.of_append_left
    have hown : (((said party rest).flatMap Exchange.asked).flatMap PartitionAppend.snapshots ++
        exchange.asked.flatMap PartitionAppend.snapshots).Nodup := by
      have hsublist := (h party).asked_sublist.trans
        (flatMap_said_sublist party Exchange.drawn (rest ++ [(party, exchange)]))
      rw [said_append, said_cons_self, List.flatMap_append, List.flatMap_append] at hsublist
      simpa [said] using hfresh.sublist hsublist
    rw [asked, List.flatMap_append, List.flatMap_append, List.flatMap_singleton,
      List.nodup_append']
    refine ⟨ih h.left hrest, hown.of_append_right, fun id hearlier hlater ↦ ?_⟩
    obtain ⟨part, hpart, hid⟩ := List.mem_flatMap.1 hearlier
    obtain ⟨⟨other, request⟩, hrequest, hpart⟩ := List.mem_flatMap.1 hpart
    have hid' : id ∈ request.asked.flatMap PartitionAppend.snapshots :=
      List.mem_flatMap.2 ⟨part, hpart, hid⟩
    obtain ⟨draw, hdraw, hdrawn⟩ := h.mem_drawn (List.mem_append_left _ hrequest) hid'
    obtain ⟨draw', hdraw', hdrawn'⟩ := h.mem_drawn (List.mem_append_right _ List.mem_cons_self)
      hlater
    obtain ⟨rfl, -⟩ := Prod.mk.inj (eq_of_mem_flatMap hfresh hdraw hdraw' hdrawn hdrawn')
    refine (List.nodup_append'.1 hown).2.2 ?_ hlater
    rw [List.flatMap_assoc]
    exact List.mem_flatMap.2 ⟨request, mem_said.2 hrequest, hid'⟩

end History

end CommitCoordinator
