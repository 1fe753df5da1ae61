import CommitCoordinator.Proofs.Coordinator.TwoPhase
import CommitCoordinator.Proofs.Data.RoundTrip
import CommitCoordinator.Proofs.Json.Lines
import CommitCoordinator.Proofs.Router.Desk
import CommitCoordinator.Proofs.Router.Projection
import CommitCoordinator.Router.Replay
import Mathlib.Algebra.GroupWithZero.Nat

/-!
# Replaying a stream is delivering its events

A stream has one event on each line, and lines of white space in between. Replaying it does what
delivering its events does, since a line of a written stream says just the event that was written.
In any other stream the events are delivered up to the first line that says nothing.
-/

namespace CommitCoordinator

open Data Text

/-! ## Lines of a stream -/

theorem splitLines_cons_of_ne {byte : UInt8} (h : byte ≠ 0x0A) {rest line : List UInt8}
    {lines : List (List UInt8)} (hrest : splitLines rest = line :: lines) :
    splitLines (byte :: rest) = (byte :: line) :: lines := by
  rw [splitLines, if_neg h, hrest]

/-- A line ends at its line break. -/
theorem splitLines_append_newline {line : List UInt8} (h : 0x0A ∉ line) (rest : List UInt8) :
    splitLines (line ++ 0x0A :: rest) = line :: splitLines rest := by
  induction line with
  | nil => rw [List.nil_append, splitLines, if_pos rfl]
  | cons byte line ih =>
    rw [List.mem_cons, not_or] at h
    exact splitLines_cons_of_ne (Ne.symm h.1) (ih h.2)

/-- The last line needs no line break. -/
theorem splitLines_of_not_mem {byte : UInt8} {line : List UInt8} (h : 0x0A ∉ byte :: line) :
    splitLines (byte :: line) = [byte :: line] := by
  induction line generalizing byte with
  | nil =>
    have hbyte : byte ≠ 0x0A := fun heq ↦ h (heq ▸ List.mem_cons_self)
    rw [splitLines, if_neg hbyte, splitLines]
  | cons next line ih =>
    rw [List.mem_cons, not_or] at h
    exact splitLines_cons_of_ne (Ne.symm h.1) (ih h.2)

/-- The text of a line that is one. -/
def lineText (line : List UInt8) : String :=
  String.ofList (decodeLossy line)

/-- The event of a line, if its text is one. -/
def eventOf? (line : List UInt8) : Option HostEvent :=
  if isBlank (lineText line) then none
  else (Json.decodeText HostEvent.codec (lineText line)).toOption

/-- Whether a line is a text, and blank or an event. -/
structure IsReadable (line : List UInt8) : Prop where
  text : utf8Fault? line = none
  blank_or_event : isBlank (lineText line) = true ∨
    ∃ event, Json.decodeText HostEvent.codec (lineText line) = .ok event

/-- Why a line of a number cannot be read: it is no text, or its text is neither blank nor an
event. -/
inductive IsFault (number : Nat) (line : List UInt8) : RunError → Prop where
  | noText {fault : Utf8Fault} (h : utf8Fault? line = some fault) :
      IsFault number line (.eventsNotText number)
  | noEvent {problem : Problem} (h : utf8Fault? line = none)
      (hblank : isBlank (lineText line) = false)
      (hdecode : Json.decodeText HostEvent.codec (lineText line) = .error problem) :
      IsFault number line (.badEvent number problem)

theorem exists_isFault {line : List UInt8} (h : ¬IsReadable line) (number : Nat) :
    ∃ cause, IsFault number line cause := by
  cases htext : utf8Fault? line with
  | some fault => exact ⟨_, .noText htext⟩
  | none =>
    cases hdecode : Json.decodeText HostEvent.codec (lineText line) with
    | ok event => exact absurd ⟨htext, .inr ⟨event, hdecode⟩⟩ h
    | error problem =>
      exact ⟨_, .noEvent htext (Bool.eq_false_iff.2 fun hblank ↦ h ⟨htext, .inl hblank⟩) hdecode⟩

theorem IsFault.read_eq {number : Nat} {line : List UInt8} {cause : RunError}
    (h : IsFault number line cause) : StreamLine.read number line = .fault cause := by
  unfold StreamLine.read
  cases h with
  | noText h => rw [h]
  | noEvent h hblank hdecode =>
    rw [lineText] at hblank hdecode
    rw [h]
    dsimp only
    rw [hblank, hdecode]
    rfl

theorem IsReadable.read_eq {line : List UInt8} (h : IsReadable line) (number : Nat) :
    StreamLine.read number line = (eventOf? line).elim .blank .event := by
  have hread := h.blank_or_event
  unfold StreamLine.read eventOf?
  rw [lineText] at hread ⊢
  rw [h.text]
  dsimp only
  cases hblank : isBlank (String.ofList (decodeLossy line)) with
  | true => rfl
  | false =>
    obtain hblank' | ⟨event, hdecode⟩ := hread
    · exact absurd (hblank.symm.trans hblank') Bool.false_ne_true
    · rw [hdecode]
      rfl

/-! ## Streams that are written -/

/-- A line of a stream without its end. -/
inductive WrittenLine where
  | event (event : HostEvent)
  | blank (spaces : List Char) (h : ∀ c ∈ spaces, isBlankChar c = true) (hline : '\n' ∉ spaces)

/-- How a line ends: in a line break, or in one after a carriage return. -/
inductive LineEnd where
  | plain
  | carriage

/-- What stands before the line break. -/
def LineEnd.chars : LineEnd → List Char
  | .plain => []
  | .carriage => ['\r']

theorem LineEnd.forall_chars (ending : LineEnd) {p : Char → Prop} (h : p '\r') :
    ∀ c ∈ ending.chars, p c := by
  cases ending with
  | plain => exact List.forall_mem_nil p
  | carriage => exact List.forall_mem_singleton.2 h

namespace WrittenLine

def event? : WrittenLine → Option HostEvent
  | .event written => some written
  | .blank _ _ _ => none

def chars : WrittenLine → List Char
  | .event written => (Json.encodeCompact HostEvent.codec written).toList
  | .blank spaces _ _ => spaces

/-- The bytes of a line up to its line break. -/
def bytes (line : WrittenLine) (ending : LineEnd) : List UInt8 :=
  (line.chars ++ ending.chars).flatMap String.utf8EncodeChar

end WrittenLine

/-- Lines that end in line breaks, and one that ends with the stream. -/
structure WrittenStream where
  lines : List (WrittenLine × LineEnd)
  last : Option WrittenLine

namespace WrittenStream

/-- The events that were written. -/
def events (stream : WrittenStream) : List HostEvent :=
  (stream.lines.map Prod.fst ++ stream.last.toList).filterMap WrittenLine.event?

def text (stream : WrittenStream) : String :=
  String.ofList ((stream.lines.flatMap fun line ↦ line.1.chars ++ line.2.chars ++ ['\n']) ++
    stream.last.elim [] WrittenLine.chars)

def bytes (stream : WrittenStream) : List UInt8 :=
  stream.text.toUTF8.toList

end WrittenStream

theorem newline_not_mem_utf8 {cs : List Char} (h : '\n' ∉ cs) :
    0x0A ∉ cs.flatMap String.utf8EncodeChar := fun hmem ↦ by
  obtain ⟨c, hc, hbyte⟩ := List.mem_flatMap.1 hmem
  exact h (eq_newline_of_mem hbyte ▸ hc)

theorem lineText_utf8 (cs : List Char) :
    lineText (cs.flatMap String.utf8EncodeChar) = String.ofList cs := by
  rw [lineText, decodeLossy_utf8EncodeChar]

theorem isBlank_ofList {cs : List Char} :
    isBlank (String.ofList cs) = true ↔ ∀ c ∈ cs, isBlankChar c = true := by
  rw [isBlank, String.toList_ofList, List.all_eq_true]

/-- The written form of an event starts with a brace, so it is not blank. -/
theorem HostEvent.exists_encodeCompact (event : HostEvent) :
    ∃ rest, (Json.encodeCompact HostEvent.codec event).toList = '{' :: rest := by
  rw [Json.encodeCompact, Json.compact, String.toList_ofList]
  change ∃ rest, Json.print (.map (_ :: _)) [] = _
  rw [Json.print]
  exact ⟨_, rfl⟩

namespace WrittenLine

variable (line : WrittenLine) (ending : LineEnd)

theorem newline_not_mem_bytes : 0x0A ∉ line.bytes ending := by
  have hending : ∀ c ∈ ending.chars, c ≠ '\n' := ending.forall_chars (by decide)
  refine newline_not_mem_utf8 fun hmem ↦ ?_
  rcases List.mem_append.1 hmem with hmem | hmem
  · cases line with
    | event written => exact Json.newline_not_mem_compact _ hmem
    | blank spaces h hline => exact hline hmem
  · exact hending _ hmem rfl

/-- A written line is readable, and its event is the one that was written. -/
theorem isReadable_bytes : IsReadable (line.bytes ending) ∧
    eventOf? (line.bytes ending) = line.event? := by
  have htext : utf8Fault? (line.bytes ending) = none := utf8Fault?_utf8EncodeChar _
  rw [eventOf?]
  cases line with
  | blank spaces h hline =>
    have hending : ∀ c ∈ ending.chars, isBlankChar c = true := ending.forall_chars rfl
    have hblank : isBlank (lineText ((blank spaces h hline).bytes ending)) = true := by
      rw [bytes, lineText_utf8, isBlank_ofList]
      exact List.forall_mem_append.2 ⟨h, hending⟩
    rw [if_pos hblank]
    exact ⟨⟨htext, .inl hblank⟩, rfl⟩
  | event written =>
    have hending : ∀ c ∈ ending.chars, Json.isSpace (some c) = true := ending.forall_chars rfl
    have hblank : ¬isBlank (lineText ((event written).bytes ending)) = true := by
      obtain ⟨rest, hrest⟩ := written.exists_encodeCompact
      rw [bytes, lineText_utf8, isBlank_ofList, chars, hrest]
      exact fun hall ↦ absurd (hall '{' List.mem_cons_self) (by decide)
    have hdecode : Json.decodeText HostEvent.codec
        (lineText ((event written).bytes ending)) = .ok written := by
      rw [bytes, lineText_utf8, chars]
      exact Json.decodeText_compact_append HostEvent.codec_lawful (by decide) written hending
    rw [if_neg hblank, hdecode]
    exact ⟨⟨htext, .inr ⟨written, hdecode⟩⟩, rfl⟩

end WrittenLine

/-- The lines that were written are the first lines, whatever follows them. -/
theorem splitLines_written (lines : List (WrittenLine × LineEnd)) (rest : List UInt8) :
    splitLines ((lines.flatMap fun line ↦ line.1.bytes line.2 ++ [0x0A]) ++ rest) =
      (lines.map fun line ↦ line.1.bytes line.2) ++ splitLines rest := by
  induction lines with
  | nil => rfl
  | cons line lines ih =>
    rw [List.flatMap_cons, List.append_assoc, List.append_assoc, List.singleton_append,
      splitLines_append_newline (line.1.newline_not_mem_bytes line.2), ih]
    rfl

/-- Written lines are readable, and their events are those that were written. -/
theorem readable_written (lines : List (WrittenLine × LineEnd)) :
    (∀ line ∈ lines.map fun line ↦ line.1.bytes line.2, IsReadable line) ∧
      (lines.map fun line ↦ line.1.bytes line.2).filterMap eventOf? =
        (lines.map Prod.fst).filterMap WrittenLine.event? := by
  rw [List.filterMap_map, List.filterMap_map]
  exact ⟨List.forall_mem_map.2 fun line _ ↦ (line.1.isReadable_bytes line.2).1,
    List.filterMap_congr fun line _ ↦ (line.1.isReadable_bytes line.2).2⟩

/-- Bytes after the last line break are a line, unless there are none. -/
theorem readable_splitLines {line : List UInt8} (hline : 0x0A ∉ line) (h : IsReadable line) :
    (∀ found ∈ splitLines line, IsReadable found) ∧
      (splitLines line).filterMap eventOf? = [line].filterMap eventOf? := by
  cases line with
  | nil =>
    have hblank : eventOf? [] = none := if_pos (by rw [lineText, decodeLossy]; rfl)
    exact ⟨List.forall_mem_nil _, (List.filterMap_cons_none hblank).symm⟩
  | cons byte line =>
    rw [splitLines_of_not_mem hline]
    exact ⟨List.forall_mem_singleton.2 h, rfl⟩

namespace WrittenStream

variable (stream : WrittenStream)

theorem bytes_eq : stream.bytes =
    (stream.lines.flatMap fun line ↦ line.1.bytes line.2 ++ [0x0A]) ++
      stream.last.elim [] (·.bytes .plain) := by
  have hline (line : WrittenLine × LineEnd) :
      (line.1.chars ++ line.2.chars ++ ['\n']).flatMap String.utf8EncodeChar =
        line.1.bytes line.2 ++ [0x0A] :=
    List.flatMap_append
  have hlast : (stream.last.elim [] WrittenLine.chars).flatMap String.utf8EncodeChar =
      stream.last.elim [] (·.bytes .plain) := by
    cases stream.last with
    | none => rfl
    | some line =>
      rw [Option.elim_some, Option.elim_some, WrittenLine.bytes, LineEnd.chars, List.append_nil]
  rw [bytes, toUTF8_toList, text, String.toList_ofList, List.flatMap_append, List.flatMap_assoc,
    hlast]
  simp only [hline]

/-- All lines of a written stream are readable, and their events are those that were written. -/
theorem readable_bytes : (∀ line ∈ splitLines stream.bytes, IsReadable line) ∧
    (splitLines stream.bytes).filterMap eventOf? = stream.events := by
  have hlast : (∀ line ∈ splitLines (stream.last.elim [] (·.bytes .plain)), IsReadable line) ∧
      (splitLines (stream.last.elim [] (·.bytes .plain))).filterMap eventOf? =
        stream.last.toList.filterMap WrittenLine.event? := by
    cases stream.last with
    | none => exact ⟨List.forall_mem_nil _, rfl⟩
    | some line =>
      obtain ⟨hall, hevents⟩ := readable_splitLines (line.newline_not_mem_bytes .plain)
        (line.isReadable_bytes .plain).1
      exact ⟨hall, hevents.trans (readable_written [(line, .plain)]).2⟩
  rw [bytes_eq, splitLines_written, events, List.filterMap_append, List.filterMap_append, hlast.2,
    (readable_written stream.lines).2]
  exact ⟨List.forall_mem_append.2 ⟨(readable_written stream.lines).1, hlast.1⟩, rfl⟩

end WrittenStream

/-! ## Replaying readable lines -/

section Replaying

variable {m : Type → Type} [Monad m] [LawfulMonad m] [MonadMetrics m] [MonadFresh m] [MonadClock m]

namespace Router

/-- Lines that can be read are delivered, and the others follow unless an event fails. -/
theorem replayLines_append {front : List (List UInt8)} (h : ∀ line ∈ front, IsReadable line)
    (back : List (List UInt8)) (number events : Nat) (router : Router m) :
    replayLines number events (front ++ back) router = do
      match ← driveWith deliver events (front.filterMap eventOf?) router with
      | (.ok delivered, router) => replayLines (number + front.length) delivered back router
      | (.error e, router) => return (.error e, router) := by
  induction front generalizing number events router with
  | nil =>
    rw [List.filterMap_nil, driveWith, pure_bind]
    rfl
  | cons line rest ih =>
    obtain ⟨hline, hrest⟩ := List.forall_mem_cons.1 h
    have hcount : number + (line :: rest).length = number + 1 + rest.length := by
      rw [List.length_cons]
      omega
    rw [List.cons_append, replayLines, hline.read_eq, hcount]
    cases hevent : eventOf? line with
    | none =>
      rw [List.filterMap_cons_none hevent]
      exact ih hrest (number + 1) events router
    | some event =>
      rw [List.filterMap_cons_some hevent, driveWith, bind_assoc]
      apply bind_congr
      rintro ⟨_ | _, next⟩
      · rw [pure_bind]
      · exact ih hrest (number + 1) (events + 1) next

end Router

end Replaying

/-! ## The commits of a run -/

namespace Router

theorem commitCount_eq_sum {m : Type → Type} (router : Router m) :
    router.commitCount =
      (router.routes.entries.map fun entry ↦ entry.2.operator.commitCount).sum := by
  rw [commitCount, SequencedMap.values, List.foldl_map, List.sum_eq_foldl, List.foldl_map]

/-- A new operator brings its commits in place of those of the one it replaces. -/
theorem commitCount_setOperator {m : Type → Type} {router : Router m} {name : String}
    {route : Route m} (h : router.routes.find? name = some route) (operator : Operator) :
    (router.setOperator name route operator).commitCount + route.operator.commitCount =
      router.commitCount + operator.commitCount := by
  obtain ⟨front, back, hentries, hinsert⟩ :=
    SequencedMap.entries_insert_of_find? h { route with operator }
  rw [commitCount_eq_sum, commitCount_eq_sum, setOperator, hinsert, hentries]
  simp only [List.map_append, List.map_cons, List.sum_append, List.sum_cons]
  omega

section Visits

variable {σ : Type} [MonadMetrics (StateM σ)] [MonadFresh (StateM σ)] [MonadClock (StateM σ)]

/-- Visits add their commits to those of a router. -/
theorem Visited.commitCount_eq {router after : Router (StateM σ)} {s last : σ}
    {visits : List Visit} (h : Visited router s visits after last) :
    after.commitCount = router.commitCount + visits.countP (·.2.isCommitted) := by
  induction h with
  | nil => rfl
  | @cons router after s between last name route event operator rest hroute hevent hdeliver hrest
      ih =>
    obtain ⟨summary, hvalid, hresult, -, rfl⟩ := Operator.valid_of_deliver hdeliver
    have hcount : (route.operator.after _).commitCount = _ := Operator.commitCount_after hvalid
    rw [hresult] at hcount
    have hset := commitCount_setOperator hroute
      (route.operator.after (.ok summary, (route.operator.stepOf route.services route.store event
        s).after))
    rw [hcount] at hset
    rw [ih, List.countP_cons]
    dsimp only
    omega

/-! ## Replaying and delivering -/

section Replay

variable {content : List UInt8} {front back : List (List UInt8)} {router after : Router (StateM σ)}
  {s last : σ}

/-- An event that fails ends the replay. -/
theorem replay_of_error (hlines : splitLines content = front ++ back)
    (hfront : ∀ line ∈ front, IsReadable line) {cause : RunError}
    (hdrive : (driveWith deliver 0 (front.filterMap eventOf?) router : StateM σ _) s =
      ((.error cause, after), last)) :
    (router.replay content : StateM σ _) s = ((.error cause, after), last) := by
  rw [replay, hlines, replayLines_append hfront, Storage.state_bind, Storage.state_bind, hdrive]
  rfl

/-- A line that cannot be read ends the replay when the events before it have been delivered. -/
theorem replay_of_fault {line : List UInt8} (hlines : splitLines content = front ++ line :: back)
    (hfront : ∀ line ∈ front, IsReadable line) {cause : RunError}
    (hfault : IsFault (front.length + 1) line cause) {delivered : Nat}
    (hdrive : (driveWith deliver 0 (front.filterMap eventOf?) router : StateM σ _) s =
      ((.ok delivered, after), last)) :
    (router.replay content : StateM σ _) s = ((.error cause, after), last) := by
  rw [replay, hlines, replayLines_append hfront, Storage.state_bind, Storage.state_bind, hdrive]
  dsimp only
  rw [replayLines, Nat.zero_add, hfault.read_eq]
  rfl

theorem replay_of_readable (hlines : ∀ line ∈ splitLines content, IsReadable line)
    {delivered : Nat}
    (hdrive : (driveWith deliver 0 ((splitLines content).filterMap eventOf?) router :
      StateM σ _) s = ((.ok delivered, after), last)) :
    (router.replay content : StateM σ _) s =
      ((.ok ⟨delivered, after.commitCount - router.commitCount⟩, after), last) := by
  have hall : splitLines content = splitLines content ++ [] := (List.append_nil _).symm
  rw [replay, hall, replayLines_append hlines, Storage.state_bind, Storage.state_bind, hdrive]
  rfl

end Replay

/-- Replaying a stream is delivering its events. A stream that was written, with one event on each
line and any blank lines, leads to the same router and state and ends in the same error, if it ends
in one; else its events and the visits with a commit are counted. Any other stream is delivered up
to its first line that is neither blank nor an event, and ends in an error with the number of that
line unless an event before it fails. -/
theorem replay_is_delivery (router : Router (StateM σ)) (s : σ) :
    (∀ stream : WrittenStream,
      (∀ delivered after last, (driveWith deliver 0 stream.events router : StateM σ _) s =
          ((.ok delivered, after), last) →
        delivered = stream.events.length ∧
        after.commitCount = router.commitCount +
          (router.visits stream.events s).countP (·.2.isCommitted) ∧
        (router.replay stream.bytes : StateM σ _) s =
          ((.ok ⟨stream.events.length,
            (router.visits stream.events s).countP (·.2.isCommitted)⟩, after), last)) ∧
      ∀ cause after last, (driveWith deliver 0 stream.events router : StateM σ _) s =
          ((.error cause, after), last) →
        (router.replay stream.bytes : StateM σ _) s = ((.error cause, after), last)) ∧
    ∀ content front line back, splitLines content = front ++ line :: back →
      (∀ earlier ∈ front, IsReadable earlier) → ¬IsReadable line →
      (∃ cause, IsFault (front.length + 1) line cause ∧
        ∀ delivered after last,
          (driveWith deliver 0 (front.filterMap eventOf?) router : StateM σ _) s =
            ((.ok delivered, after), last) →
          (router.replay content : StateM σ _) s = ((.error cause, after), last)) ∧
      ∀ cause after last,
        (driveWith deliver 0 (front.filterMap eventOf?) router : StateM σ _) s =
          ((.error cause, after), last) →
        (router.replay content : StateM σ _) s = ((.error cause, after), last) := by
  refine ⟨fun stream ↦ ?_, fun content front line back hlines hfront hline ↦ ?_⟩
  · obtain ⟨hreadable, hevents⟩ := stream.readable_bytes
    constructor
    · intro delivered after last hdrive
      have hcount := (visited_of_drive hdrive).1.commitCount_eq
      have htotal := total_of_driveWith hdrive
      rw [Nat.zero_add] at htotal
      refine ⟨htotal, hcount, ?_⟩
      rw [replay_of_readable hreadable (hevents ▸ hdrive), htotal, hcount, Nat.add_sub_cancel_left]
    · intro cause after last hdrive
      exact replay_of_error (List.append_nil _).symm hreadable (hevents ▸ hdrive)
  · obtain ⟨cause, hfault⟩ := exists_isFault hline (front.length + 1)
    exact ⟨⟨cause, hfault, fun _ _ _ ↦ replay_of_fault hlines hfront hfault⟩,
      fun _ _ _ ↦ replay_of_error hlines hfront⟩

end Visits

/-! ## A stream that is replayed -/

/-- The router of one table, with the operator that works at a desk. -/
def ofOrders : Router (StateM Desk) :=
  ⟨.ofList [("orders", ⟨⟨"orders"⟩, Desk.services, memoryStore, false, ordersOperator⟩)]⟩

def ordersLines : List (WrittenLine × LineEnd) :=
  [(.event (.watermark 40), .plain),
    (.blank ['\t'] (List.forall_mem_singleton.2 rfl) (by decide), .plain),
    (.event ordersReport, .carriage)]

def ordersStream : WrittenStream :=
  ⟨ordersLines, some (.event (.checkpoint 6))⟩

/-- The lines before the last, which is no text here. -/
def brokenStream : List UInt8 :=
  (ordersLines.flatMap fun line ↦ line.1.bytes line.2 ++ [0x0A]) ++ [0xFF]

/-- What the router does with events at the desk. -/
def ordersDrive (events : List HostEvent) : (Except RunError Nat × Router (StateM Desk)) × Desk :=
  (driveWith deliver 0 events ofOrders : StateM Desk _) (ordersDesk [])

theorem ordersDrive_eq {events : List HostEvent} {delivered : Nat}
    (h : (ordersDrive events).1.1 = .ok delivered) :
    (driveWith deliver 0 events ofOrders : StateM Desk _) (ordersDesk []) =
      ((.ok delivered, (ordersDrive events).1.2), (ordersDrive events).2) := by
  rw [← h]
  rfl

/-- The report in the stream is committed, also when the fourth line is no text. The checkpoint is
then not delivered, so no snapshot is stored. -/
theorem replay_is_delivery_orders :
    ((ofOrders.replay ordersStream.bytes : StateM Desk _) (ordersDesk [])).1.1 = .ok ⟨3, 1⟩ ∧
      ((ofOrders.replay brokenStream : StateM Desk _) (ordersDesk [])).1.1 =
        .error (.eventsNotText 4) ∧
      ((ofOrders.replay brokenStream : StateM Desk _) (ordersDesk [])).2.snapshots = [] := by
  obtain ⟨hwritten, hbroken⟩ := replay_is_delivery ofOrders (ordersDesk [])
  have hstream : (ordersDrive ordersStream.events).1.1 = .ok 3 := by decide +kernel
  have hlines : (ordersDrive [.watermark 40, ordersReport]).1.1 = .ok 2 := by decide +kernel
  have hcount : (ofOrders.visits ordersStream.events (ordersDesk [])).countP (·.2.isCommitted) =
      1 := by decide +kernel
  constructor
  · obtain ⟨-, -, hreplay⟩ := (hwritten ordersStream).1 _ _ _ (ordersDrive_eq hstream)
    rw [hreplay, hcount]
    rfl
  · have hsplit : splitLines brokenStream =
        (ordersLines.map fun line ↦ line.1.bytes line.2) ++ [[0xFF]] := by
      rw [brokenStream, splitLines_written, splitLines_of_not_mem (by decide)]
    have hfault : utf8Fault? [0xFF] = some ⟨0, some 1⟩ := by
      rw [utf8Fault?, utf8FaultFrom]
      rfl
    have hlast : ¬IsReadable [0xFF] := fun h ↦ by
      cases h.text.symm.trans hfault
    obtain ⟨hreadable, hwhole⟩ := readable_written ordersLines
    have hevents : (ordersLines.map fun line ↦ line.1.bytes line.2).filterMap eventOf? =
        [.watermark 40, ordersReport] := hwhole
    obtain ⟨cause, hcause, hreplay⟩ := (hbroken brokenStream _ _ _ hsplit hreadable hlast).1
    rw [hreplay 2 _ _ (hevents ▸ ordersDrive_eq hlines)]
    cases hcause with
    | noText => exact ⟨rfl, by decide +kernel⟩
    | noEvent h => cases h.symm.trans hfault

end Router

end CommitCoordinator
