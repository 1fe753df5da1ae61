import CommitCoordinator.Proofs.Catalog.Versions

/-!
# Snapshots that are listed twice

A catalog compares the snapshots of a request with those that it has, but not with each other. So
a chain has no repeats as long as no accepted request lists a snapshot twice, and a request that
does so brings the repeat into its chain.
-/

namespace CommitCoordinator

namespace Catalog

variable {catalog : Catalog} {call : CatalogCall} {calls : List CatalogCall}
  {tableId partition : String}

/-- A call is among the accepted ones if it was accepted in its place. -/
theorem mem_acceptedOf_iff :
    call ∈ catalog.acceptedOf calls ↔
      ∃ front back, calls = front ++ call :: back ∧
        (catalog.afterCalls front).accepts call = true := by
  induction calls generalizing catalog with
  | nil => simp [acceptedOf]
  | cons first calls ih =>
    rw [acceptedOf, List.mem_append, ih]
    constructor
    · rintro (hfirst | ⟨front, back, rfl, haccepts⟩)
      · split at hfirst
        · next haccepts =>
          rw [List.mem_singleton] at hfirst
          subst hfirst
          exact ⟨[], calls, rfl, haccepts⟩
        · cases hfirst
      · exact ⟨first :: front, back, rfl, haccepts⟩
    · rintro ⟨front, back, hcalls, haccepts⟩
      cases front with
      | nil =>
        obtain ⟨rfl, rfl⟩ := List.cons.inj hcalls
        left
        rw [afterCalls_nil] at haccepts
        rw [if_pos haccepts]
        exact List.mem_cons_self
      | cons other front =>
        obtain ⟨rfl, rfl⟩ := List.cons.inj hcalls
        exact .inr ⟨front, back, rfl, haccepts⟩

/-- An accepted call brings no snapshot that its partition has. -/
theorem notMem_chain_of_brings (haccepts : catalog.accepts call = true) {id : Uuid}
    (hid : id ∈ call.brings tableId partition) : id ∉ catalog.chain tableId partition := by
  have heffect := effect_afterCall catalog call
  rw [haccepts] at heffect
  generalize catalog.afterCall call = after at heffect
  cases heffect with
  | appended happend =>
    obtain ⟨part, hpart, rfl, rfl, hsnapshot⟩ := mem_snapshotsFor.1 hid
    exact (suits_of_append? happend).fresh part hpart id hsnapshot

theorem nodup_chain_afterCall (hchain : (catalog.chain tableId partition).Nodup)
    (hbrings : catalog.accepts call = true → (call.brings tableId partition).Nodup) :
    ((catalog.afterCall call).chain tableId partition).Nodup := by
  cases hnamed : catalog.accepts call && call.names tableId partition with
  | false => rwa [chain_afterCall_of_not hnamed]
  | true =>
    obtain ⟨haccepts, hnames⟩ := Bool.and_eq_true_iff.1 hnamed
    rw [chain_afterCall_of_names haccepts hnames]
    apply List.Nodup.append
    · split
      · exact hchain
      · exact List.nodup_nil
    · exact hbrings haccepts
    · intro id hkept hid
      split at hkept
      · exact notMem_chain_of_brings haccepts hid hkept
      · cases hkept

theorem nodup_chain_afterCalls (hchain : (catalog.chain tableId partition).Nodup)
    (hbrings : ∀ call ∈ catalog.acceptedOf calls, (call.brings tableId partition).Nodup) :
    ((catalog.afterCalls calls).chain tableId partition).Nodup := by
  induction calls generalizing catalog with
  | nil => exact hchain
  | cons call calls ih =>
    apply ih
    · apply nodup_chain_afterCall hchain
      intro haccepts
      exact hbrings call (mem_acceptedOf_iff.2 ⟨[], calls, rfl, haccepts⟩)
    · intro other hother
      exact hbrings other (List.mem_append_right _ hother)

/-- What an accepted call brings stands at the end of the chain. -/
theorem brings_suffix_chain (haccepts : catalog.accepts call = true) :
    call.brings tableId partition <:+ (catalog.afterCall call).chain tableId partition := by
  cases hnames : call.names tableId partition with
  | false =>
    rw [brings_of_not_names hnames]
    exact List.nil_suffix
  | true =>
    rw [chain_afterCall_of_names haccepts hnames]
    exact List.suffix_append _ _

end Catalog

/-- In the catalogs that calls on the empty catalog lead to, the chain of a partition is free of
repeats exactly if no accepted call brings a snapshot twice. -/
theorem chain_nodup_iff (calls : List CatalogCall) (tableId partition : String) :
    (∀ front, front <+: calls →
        ((Catalog.empty.afterCalls front).chain tableId partition).Nodup) ↔
      ∀ call ∈ Catalog.empty.acceptedOf calls, (call.brings tableId partition).Nodup := by
  constructor
  · intro hchains call hcall
    obtain ⟨front, back, rfl, haccepts⟩ := Catalog.mem_acceptedOf_iff.1 hcall
    have hfront : front ++ [call] <+: front ++ call :: back := by
      rw [List.append_cons front call back]
      exact List.prefix_append _ _
    have hchain := hchains _ hfront
    rw [Catalog.afterCalls_append] at hchain
    exact hchain.sublist (Catalog.brings_suffix_chain haccepts).sublist
  · intro hbrings front hfront
    have hstart : (Catalog.empty.chain tableId partition).Nodup := List.nodup_nil
    apply Catalog.nodup_chain_afterCalls hstart
    intro call hcall
    obtain ⟨before, after, rfl, haccepts⟩ := Catalog.mem_acceptedOf_iff.1 hcall
    obtain ⟨back, rfl⟩ := hfront
    apply hbrings call
    apply Catalog.mem_acceptedOf_iff.2
    exact ⟨before, after ++ back, by simp, haccepts⟩

/-- The first request of a partition lists a snapshot twice. -/
def repeatingCalls : List CatalogCall :=
  [.register eventsTable,
    .append ⟨eventsTable, [⟨"t", "d", .append, [.ofNumber 0, .ofNumber 0]⟩]⟩ true .append]

/-- The request is accepted, and the chain has the snapshot twice. -/
theorem chain_repeats_listed :
    (Catalog.empty.afterCalls repeatingCalls).chain "t" "d" = [.ofNumber 0, .ofNumber 0] ∧
      ¬((Catalog.empty.afterCalls repeatingCalls).chain "t" "d").Nodup := by
  decide

end CommitCoordinator
