import CommitCoordinator.Proofs.Failover.Coverage

/-!
# Accepted reports are committed at least once

While a coordinator is up, each partition of an accepted report is pending, was appended after
the report, or belongs to a report that is still to be delivered again. While it is down the store
takes the place of the pending partitions and the whole window is to be delivered again. All
reports of the window agree on the number of writers, so a coordinator that learns this number
from the first of them accepts the others too.
-/

namespace CommitCoordinator.Host

open Dialogue

/-- What holds of a coordinator that is up. -/
structure Serves (host : Host) (coordinator : Coordinator) (total : UInt32) : Prop where
  initialized : coordinator.isInitialized = true
  quorum_total : ∀ quorum, coordinator.quorum = some quorum → quorum.total = total
  /-- A coordinator without a quorum has yet to hear the whole window. -/
  unheard : coordinator.quorum = none → host.queue = host.window
  queue_subset : host.queue ⊆ host.window
  covered : Covered host.history coordinator.pendingList host.queue

/-- What holds of a host whose window agrees on a number of writers. -/
structure Sound (host : Host) (total : UInt32) : Prop where
  total_ne_zero : total ≠ 0
  window_fits : ∀ report ∈ host.window, report.Fits total
  restorable : Covered host.history (Pending.storedNames host.stored) host.window
  serves : ∀ coordinator, host.coordinator = some coordinator → host.Serves coordinator total

section Step

variable {host : Host} {total : UInt32} {step : Step}

/-- A report that is delivered again is accepted again. -/
theorem Sound.exists_receive_next (h : host.Sound total) {coordinator : Coordinator}
    (hup : host.coordinator = some coordinator) {report : Report} {rest : List Report}
    (hnext : host.queue = report :: rest) :
    ∃ outcome, coordinator.receive report = .ok outcome := by
  have hserves := h.serves coordinator hup
  have hqueue : report ∈ host.queue := by
    rw [hnext]
    exact List.mem_cons_self
  have hfits : report.Fits total := h.window_fits report (hserves.queue_subset hqueue)
  obtain ⟨quorum, hquorum⟩ :=
    Coordinator.exists_quorumFor h.total_ne_zero hfits hserves.quorum_total
  exact Coordinator.exists_receive hserves.initialized hquorum

theorem Admits.eq_next {report next : Report} {rest : List Report}
    (hturn : host.Admits (.record report)) (hnext : host.queue = next :: rest) : report = next :=
  hturn next (by rw [hnext]; rfl)

theorem Sound.accepts_again (h : host.Sound total) (hup : host.coordinator = some step.before)
    {report : Report} (hevent : step.event = .record report) (hturn : host.Admits step.event)
    (hqueue : host.queue ≠ []) : step.accepted? = some report := by
  obtain ⟨next, rest, hnext⟩ := List.exists_cons_of_ne_nil hqueue
  rw [hevent] at hturn
  obtain ⟨outcome, hreceive⟩ := h.exists_receive_next hup hnext
  rw [← Admits.eq_next hturn hnext] at hreceive
  exact Step.accepted?_of_receive hevent hreceive

theorem grownWindow_of_none (haccepted : step.accepted? = none) :
    host.grownWindow step = host.window := by
  rw [grownWindow, haccepted]
  split <;> exact List.append_nil _

theorem window_subset_grownWindow : host.window ⊆ host.grownWindow step :=
  List.subset_append_left _ _

/-- The report that is next in turn is in the window once it has been accepted. -/
theorem Sound.mem_grownWindow (h : host.Sound total) (hup : host.coordinator = some step.before)
    (hturn : host.Admits step.event) {report : Report}
    (haccepted : step.accepted? = some report) : report ∈ host.grownWindow step := by
  by_cases hqueue : host.queue = []
  · rw [grownWindow, if_pos hqueue, haccepted]
    exact List.mem_append_right _ List.mem_cons_self
  · obtain ⟨next, rest, hnext⟩ := List.exists_cons_of_ne_nil hqueue
    obtain ⟨hevent, -⟩ := Step.accepted?_eq_some haccepted
    rw [hevent] at hturn
    have hmem : report ∈ host.queue := by
      rw [hnext, Admits.eq_next hturn hnext]
      exact List.mem_cons_self
    exact window_subset_grownWindow ((h.serves _ hup).queue_subset hmem)

/-- The reports of the window still agree after one more has been accepted. -/
theorem Sound.exists_total (h : host.Sound total) (hup : host.coordinator = some step.before)
    (hstep : step.Valid) (hturn : host.Admits step.event) :
    ∃ total', total' ≠ 0 ∧ (∀ report ∈ host.grownWindow step, report.Fits total') ∧
      (∀ quorum, step.after.quorum = some quorum → quorum.total = total') ∧
      (step.after.quorum = none → step.before.quorum = none ∧ step.accepted? = none) := by
  have hserves := h.serves step.before hup
  cases haccepted : step.accepted? with
  | none =>
    obtain ⟨hquorum, -⟩ := hstep.of_not_accepted haccepted
    rw [grownWindow_of_none haccepted, hquorum]
    exact ⟨total, h.total_ne_zero, h.window_fits, hserves.quorum_total, fun hnone ↦ ⟨hnone, rfl⟩⟩
  | some report =>
    obtain ⟨hevent, received, completed, hreceive⟩ := Step.accepted?_eq_some haccepted
    obtain ⟨quorum, hquorum, hfits, hknown⟩ := Coordinator.receive_fits hreceive
    have hafter : step.after.quorum = some quorum :=
      (hstep.of_receive hevent hreceive).1.trans hquorum
    have hsame : host.window ≠ [] → total = quorum.total := by
      intro hwindow
      cases hbefore : step.before.quorum with
      | some known => rw [← hserves.quorum_total known hbefore, hknown known hbefore]
      | none =>
        have hqueue : host.queue ≠ [] := by
          rw [hserves.unheard hbefore]
          exact hwindow
        have hmem := h.mem_grownWindow hup hturn haccepted
        rw [grownWindow, if_neg hqueue, List.append_nil] at hmem
        exact (h.window_fits report hmem).1.symm.trans hfits.1
    refine ⟨quorum.total, quorum.total_ne_zero, fun other hother ↦ ?_, fun other hother ↦ ?_,
      fun hnone ↦ ?_⟩
    · rcases List.mem_append.1 hother with hmem | hmem
      · rw [← hsame (List.ne_nil_of_mem hmem)]
        exact h.window_fits other hmem
      · split at hmem
        · rw [haccepted] at hmem
          cases List.mem_singleton.1 hmem
          exact hfits
        · cases hmem
    · rw [hafter] at hother
      rw [Option.some.inj hother]
    · rw [hafter] at hnone
      cases hnone

/-- What was accepted so far can be restored after any part of a step. -/
theorem Sound.restorable_of_step (h : host.Sound total)
    (hup : host.coordinator = some step.before) (hstep : step.Valid)
    (hturn : host.Admits step.event) {answered seen : List Exchange} {stored : List Snapshot}
    (hseen : seen <+: step.transcript) (hstored : Persists host.stored seen stored) :
    Covered (host.history ++ step.moments answered) (Pending.storedNames stored)
      (host.grownWindow step) := by
  have hfurther : Covered (step.moments answered) (Pending.storedNames stored)
      (host.grownWindow step) := by
    refine Step.covered_moments fun report haccepted partition hpartition ↦ .inl (.inr ?_)
    exact ⟨report, h.mem_grownWindow hup hturn haccepted, hpartition⟩
  rcases hstored.eq_or_mem with rfl | ⟨written, hmem⟩
  · refine h.restorable.extend (fun partition hheld ↦ .inl ?_) hfurther
    refine hheld.imp_right fun ⟨report, hreport, hpartition⟩ ↦ ?_
    exact ⟨report, window_subset_grownWindow hreport, hpartition⟩
  · obtain ⟨⟨checkpoint, hevent⟩, hnames⟩ := hstep.names_of_store (hseen.subset hmem)
    have hqueue : host.queue = [] := by
      rw [hevent] at hturn
      exact hturn
    have hcovered := (h.serves _ hup).covered
    rw [hqueue] at hcovered
    refine hcovered.extend (fun partition hheld ↦ .inl ?_) hfurther
    rcases hheld with hpending | ⟨report, hreport, -⟩
    · exact .inl (hnames ▸ hpending)
    · cases hreport

theorem queueAfter_subset (event : HostEvent) : host.queueAfter event ⊆ host.queue := by
  cases event with
  | record report => exact (List.tail_sublist host.queue).subset
  | _ => exact List.Subset.refl _

/-- Without an accepted report the queue stays as it is. -/
theorem Sound.queueAfter_of_none (h : host.Sound total) (hup : host.coordinator = some step.before)
    (hturn : host.Admits step.event) (haccepted : step.accepted? = none) :
    host.queueAfter step.event = host.queue := by
  cases hevent : step.event with
  | record report =>
    by_cases hqueue : host.queue = []
    · rw [queueAfter, hqueue]
      rfl
    · rw [h.accepts_again hup hevent hturn hqueue] at haccepted
      cases haccepted
  | _ => rfl

/-- What the coordinator has yet to commit after a step, or to hear again. -/
theorem Sound.covered_of_step (h : host.Sound total) (hup : host.coordinator = some step.before)
    (hstep : step.Valid) (hturn : host.Admits step.event) :
    Covered (host.history ++ step.moments step.transcript) step.after.pendingList
      (host.queueAfter step.event) := by
  have hcovered := (h.serves _ hup).covered
  cases haccepted : step.accepted? with
  | none =>
    rw [h.queueAfter_of_none hup hturn haccepted, (hstep.of_not_accepted haccepted).2]
    refine hcovered.extend (fun partition hheld ↦ .inl hheld) (Step.covered_moments ?_)
    intro report hreport
    rw [haccepted] at hreport
    cases hreport
  | some report =>
    obtain ⟨hevent, received, completed, hreceive⟩ := Step.accepted?_eq_some haccepted
    have hpending := (hstep.of_receive hevent hreceive).2
    have hreceived (partition : String) (hmem : partition ∈ step.before.pendingList ∨
        partition ∈ report.partitions.elements) : partition ∈ step.after.pendingList ∨
          Appended (step.transcript.map .exchanged) partition := by
      apply hpending
      rw [Coordinator.pendingList_receive hreceive, List.mem_eraseDups, List.mem_append]
      exact hmem
    refine hcovered.extend (fun partition hheld ↦ ?_) (Step.covered_moments ?_)
    · rcases hheld with hmem | ⟨other, hother, hpartition⟩
      · exact (hreceived partition (.inl hmem)).imp .inl Appended.moments
      · obtain ⟨next, rest, hnext⟩ := List.exists_cons_of_ne_nil (List.ne_nil_of_mem hother)
        rw [hnext] at hother
        rcases List.mem_cons.1 hother with rfl | hother
        · rw [hevent] at hturn
          rw [← Admits.eq_next hturn hnext] at hpartition
          exact (hreceived partition (.inr hpartition)).imp .inl Appended.moments
        · refine .inl (.inr ⟨other, ?_, hpartition⟩)
          rw [hevent, queueAfter, hnext]
          exact hother
    · intro other hother partition hpartition
      rw [haccepted] at hother
      cases hother
      exact (hreceived partition (.inr hpartition)).imp_left .inl

theorem windowAfter_eq (host : Host) (step : Step) :
    host.windowAfter step = host.grownWindow step ∨
      ∃ checkpoint summary, step.event = .checkpoint checkpoint ∧ step.result = .ok summary ∧
        host.windowAfter step = [] := by
  unfold windowAfter
  split
  · rename_i checkpoint summary hevent hresult
    exact .inr ⟨checkpoint, summary, hevent, hresult, rfl⟩
  · exact .inl rfl

/-- A host stays sound when its coordinator handles an event. -/
theorem Sound.handle (h : host.Sound total) (hup : host.coordinator = some step.before)
    (hstep : step.Valid) (hturn : host.Admits step.event) {stored : List Snapshot}
    (hstored : Persists host.stored step.transcript stored) :
    ∃ total', Sound
      { stored
        coordinator := some step.after
        queue := host.queueAfter step.event
        window := host.windowAfter step
        history := host.history ++ step.moments step.transcript } total' := by
  have hserves := h.serves _ hup
  have hcovered := h.covered_of_step hup hstep hturn
  obtain ⟨total', htotal, hfits, hquorum, hunheard⟩ := h.exists_total hup hstep hturn
  rcases windowAfter_eq host step with hwindow | ⟨checkpoint, summary, hevent, hresult, hwindow⟩
  · rw [hwindow]
    refine ⟨total', htotal, hfits, h.restorable_of_step hup hstep hturn List.prefix_rfl hstored, ?_⟩
    rintro _ ⟨⟩
    refine ⟨hstep.isInitialized hserves.initialized, hquorum, fun hnone ↦ ?_, ?_, hcovered⟩
    · obtain ⟨hbefore, haccepted⟩ := hunheard hnone
      change host.queueAfter step.event = host.grownWindow step
      rw [h.queueAfter_of_none hup hturn haccepted, grownWindow_of_none haccepted,
        hserves.unheard hbefore]
    · intro report hreport
      exact window_subset_grownWindow (hserves.queue_subset (queueAfter_subset step.event hreport))
  · have hqueue : host.queueAfter step.event = [] := by
      rw [hevent] at hturn ⊢
      exact hturn
    rw [hwindow]
    rw [hqueue] at hcovered ⊢
    refine ⟨total', htotal, fun report hreport ↦ absurd hreport List.not_mem_nil, ?_, ?_⟩
    · obtain ⟨_, -, -, hafter⟩ := hstep.stored hevent
      change Covered _ (Pending.storedNames stored) []
      rw [hstep.names_of_success hevent hresult hstored, ← hafter]
      exact hcovered
    · rintro _ ⟨⟩
      exact ⟨hstep.isInitialized hserves.initialized, hquorum, fun _ ↦ rfl,
        List.Subset.refl _, hcovered⟩

/-- A host stays sound when its coordinator crashes while it handles an event. -/
theorem Sound.interrupt (h : host.Sound total) (hup : host.coordinator = some step.before)
    (hstep : step.Valid) (hturn : host.Admits step.event) {answered seen : List Exchange}
    {stored : List Snapshot} (hseen : seen <+: step.transcript)
    (hstored : Persists host.stored seen stored) :
    ∃ total', Sound
      { stored
        coordinator := none
        queue := []
        window := host.grownWindow step
        history := host.history ++ step.moments answered } total' := by
  obtain ⟨total', htotal, hfits, -, -⟩ := h.exists_total hup hstep hturn
  exact ⟨total', htotal, hfits, h.restorable_of_step hup hstep hturn hseen hstored, nofun⟩

end Step

variable {label : String} {options : SinkOptions}

/-- A coordinator that is launched takes up what the store holds and has yet to hear the window. -/
theorem Sound.launch {host : Host} {total : UInt32} (h : host.Sound total) {restored : Bool}
    {transcript : List Exchange} {result : Except CommitError Unit} {after : Coordinator}
    (hrestored : restored = false → host.history = [])
    (hlaunch : Yields ((Coordinator.new label options).launch store restored) transcript
      (result, after))
    (hload : ∀ loaded, (⟨.load, loaded⟩ : Exchange) ∈ transcript →
      loaded = .ok host.stored ∨ ∃ cause, loaded = .error cause) :
    Sound
      { host with
        coordinator := if result.toBool then some after else none
        queue := host.window
        history := host.history ++ transcript.map .exchanged } total := by
  have hquiet (names : List String) := covered_exchanged transcript names host.window
  refine ⟨h.total_ne_zero, h.window_fits,
    h.restorable.extend (fun partition hheld ↦ .inl hheld) (hquiet _), ?_⟩
  cases Coordinator.launched_of_yields hlaunch with
  | twice hinit => cases hinit
  | failed cause _ => rintro _ ⟨⟩
  | started stored hstored =>
    rintro _ ⟨⟩
    refine ⟨rfl, nofun, fun _ ↦ rfl, List.Subset.refl _, ?_⟩
    change Covered _ (Pending.restore stored).toList host.window
    rw [Pending.toList_restore]
    cases restored with
    | false =>
      rw [hrestored rfl]
      exact hquiet _
    | true =>
      have hsame : stored = host.stored := by
        rcases hload (.ok stored) List.mem_cons_self with hloaded | ⟨cause, hloaded⟩
        · exact Except.ok.inj hloaded
        · cases hloaded
      refine h.restorable.extend (fun partition hheld ↦ .inl ?_) (hquiet _)
      rw [hsame]
      exact hheld.imp_left List.mem_eraseDups.2

/-- Whatever happens to a host, it stays sound. -/
theorem Sound.next {host after : Host} {total : UInt32} (h : host.Sound total)
    (hnext : Next label options host after) : ∃ total', after.Sound total' := by
  cases hnext with
  | launch _ hrestored hlaunch hload => exact ⟨total, h.launch hrestored hlaunch hload⟩
  | abandon hdown _ _ =>
    refine ⟨total, h.total_ne_zero, h.window_fits,
      h.restorable.extend (fun partition hheld ↦ .inl hheld) (covered_exchanged _ _ _), ?_⟩
    intro coordinator hup
    rw [show host.coordinator = some coordinator from hup] at hdown
    cases hdown
  | handle hup hstep hturn hstored => exact h.handle hup hstep hturn hstored
  | interrupt hup hstep hturn _ hseen hstored => exact h.interrupt hup hstep hturn hseen hstored
  | stop => exact ⟨total, h.total_ne_zero, h.window_fits, h.restorable, nofun⟩

theorem Reaches.sound {host : Host} (h : Reaches label options host) :
    ∃ total, host.Sound total := by
  induction h with
  | start stored =>
    exact ⟨1, by decide, nofun, covered_exchanged [] _ _, nofun⟩
  | next _ hnext ih =>
    obtain ⟨total, hsound⟩ := ih
    exact hsound.next hnext

/-- A coordinator that came back accepts all reports that are delivered again. Once it has heard
them, each partition of a report that was ever accepted is pending or was in a request that was
accepted since. -/
theorem accepted_at_least_once {host : Host} (h : Reaches label options host)
    {coordinator : Coordinator} (hup : host.coordinator = some coordinator) :
    (∀ report rest, host.queue = report :: rest →
      ∃ outcome, coordinator.receive report = .ok outcome) ∧
    (host.queue = [] →
      ∀ earlier report later, host.history = earlier ++ .accepted report :: later →
        ∀ partition ∈ report.partitions.elements,
          partition ∈ coordinator.pendingList ∨
            ∃ exchange, .exchanged exchange ∈ later ∧
              ∃ part ∈ exchange.accepted, part.partition = partition) := by
  obtain ⟨total, hsound⟩ := h.sound
  refine ⟨fun report rest hnext ↦ hsound.exists_receive_next hup hnext, ?_⟩
  intro hqueue earlier report later hhistory partition hpartition
  have hcovered := (hsound.serves coordinator hup).covered
  rw [hqueue] at hcovered
  rcases hcovered earlier report later hhistory partition hpartition with hheld | happended
  · rcases hheld with hpending | ⟨other, hother, -⟩
    · exact .inl hpending
    · cases hother
  · exact .inr happended

/-- A report of the only writer, which the catalog does not know the table of. -/
def repeatedStep : Step :=
  .of (Call.unknown [] .last)
    ((Coordinator.new "orders" (.ofLocation "/orders")).start .empty)
    (.record ⟨5, 0, 1, "orders", "", .ofList ["a"]⟩)

/-- The coordinator crashes with the report in hand, comes back and hears it again. -/
theorem accepted_at_least_once_repeated :
    "a" ∈ repeatedStep.after.pendingList ∨
      ∃ exchange, Moment.exchanged exchange ∈ repeatedStep.transcript.map .exchanged ∧
        ∃ part ∈ exchange.accepted, part.partition = "a" := by
  have hlaunch (restored : Bool) := yields_replay (Call.unknown [] .last)
    ((Coordinator.new "orders" (.ofLocation "/orders")).launch store restored)
  have hload (restored : Bool) (loaded : Except StateError (List Snapshot))
      (hmem : (⟨.load, loaded⟩ : Exchange) ∈ (replay (Call.unknown [] .last)
        ((Coordinator.new "orders" (.ofLocation "/orders")).launch store restored)).1) :
      loaded = .ok [] ∨ ∃ cause, loaded = .error cause := by
    cases restored with
    | false => cases List.mem_singleton.1 hmem
    | true =>
      rcases List.mem_cons.1 hmem with hfirst | hrest
      · cases hfirst
        exact .inl rfl
      · cases List.mem_singleton.1 hrest
  have hlaunched : Reaches "orders" (.ofLocation "/orders") _ :=
    .next (.start []) (.launch rfl (fun _ ↦ rfl) (hlaunch false) (hload false))
  have hcrashed : Reaches "orders" (.ofLocation "/orders") _ :=
    .next hlaunched (.interrupt rfl (Step.valid_of _ _ _ : repeatedStep.Valid) nofun
      List.nil_prefix List.nil_prefix (.nil []))
  have hrestored : Reaches "orders" (.ofLocation "/orders") _ :=
    .next hcrashed (.launch rfl (fun hfalse ↦ by cases hfalse) (hlaunch true) (hload true))
  have hrepeated : Reaches "orders" (.ofLocation "/orders") _ :=
    .next hrestored (.handle rfl (Step.valid_of _ _ _ : repeatedStep.Valid)
      (fun next hnext ↦ Option.some.inj hnext)
      (.elsewhere rfl (.elsewhere rfl (.elsewhere rfl (.nil [])))))
  exact (accepted_at_least_once hrepeated rfl).2 rfl _ _ _ rfl "a" List.mem_cons_self

end CommitCoordinator.Host
