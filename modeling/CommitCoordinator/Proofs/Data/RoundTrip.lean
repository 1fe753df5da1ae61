import CommitCoordinator.HostEvent
import CommitCoordinator.Proofs.Catalog.Encoding
import CommitCoordinator.Proofs.Data.Keeping

/-!
# Round trips of everything that is written

Reports and the events that carry them are written with lawful codecs, too. So all that is stored
or exchanged as JSON is read back from its text, and a text that was read is from then on written
in one way.
-/

namespace CommitCoordinator

open Data

/-! ## Reports and events -/

theorem Report.fields_lawful : Report.fields.Lawful 1 :=
  ⟨Codec.int64_lawful, Codec.uint32_lawful, Codec.uint32_lawful, Codec.text_lawful,
    Codec.text_lawful, Codec.sortedSet_lawful, trivial⟩

theorem Report.codec_lawful : Report.codec.Lawful 2 :=
  Codec.record_lawful Report.fields_lawful (by decide) fun _ ↦ rfl

theorem Report.fields_keep : Report.fields.Keeps :=
  ⟨Codec.int64_keeps, Codec.uint32_keeps, Codec.uint32_keeps, Codec.text_keeps, Codec.text_keeps,
    Codec.sortedSet_keeps, trivial⟩

namespace HostEvent

theorem decodeKind_name (kind : Kind) : decodeKind (.string kind.name) = .ok kind := by
  cases kind <;> rfl

/-- The members beside the kind are kept until the kind is known. -/
theorem splitKind_of_held (kind : Kind) {members held : List (String × Value)}
    (h : List.Forall₂ IsHeld members held) (hnames : kindField ∉ members.map Prod.fst) :
    splitKind (some kind) (members.map fun member ↦ (.string member.1, member.2)) =
      .ok (some kind, held.map fun member ↦ (.string member.1, member.2)) := by
  induction h with
  | nil => rfl
  | @cons member other members held hmember _ ih =>
    rw [List.map_cons, List.mem_cons, not_or] at hnames
    rw [List.map_cons, splitKind, if_neg (Ne.symm hnames.1), hmember.2, ih hnames.2,
      List.map_cons, hmember.1]
    rfl

/-- Whether the members beside the kind of an event are a record that the event is read from. -/
structure IsRecord {αs : List Type} (event : HostEvent) (format : RecordFormat αs)
    (values : Tuple αs) : Prop where
  members : event.members = format.fields.encode values
  lawful : format.fields.Lawful 1
  keeps : format.fields.Keeps
  nodup : (kindField :: format.fields.names).Nodup
  content (value : Value) :
    format.decode value = .ok values → ofContent value event.kind = .ok event

theorem exists_isRecord (event : HostEvent) : ∃ (αs : List Type) (format : RecordFormat αs)
    (values : Tuple αs), event.IsRecord format values := by
  cases event with
  | record report =>
    refine ⟨_, ⟨recordTitle "DataInfo", Report.fields, false⟩,
      (report.checkpoint, report.task, report.taskCount, report.table, report.fileMark,
        report.partitions, ()), rfl, Report.fields_lawful, Report.fields_keep, by decide,
      fun value h ↦ ?_⟩
    have hreport : Report.codec.decode value = .ok report := by
      simp only [Report.codec, Codec.record, h]
      rfl
    change HostEvent.record <$> Report.codec.decode value = _
    rw [hreport]
    rfl
  | watermark timestamp =>
    refine ⟨_, watermarkFormat, (timestamp, ()), rfl, ⟨Codec.int64_lawful, trivial⟩,
      ⟨Codec.int64_keeps, trivial⟩, by decide, fun value h ↦ ?_⟩
    change (watermarkFormat.decode value >>= _) = _
    rw [h]
    rfl
  | checkpoint id =>
    refine ⟨_, checkpointFormat, (id, ()), rfl, ⟨Codec.int64_lawful, trivial⟩,
      ⟨Codec.int64_keeps, trivial⟩, by decide, fun value h ↦ ?_⟩
    change (checkpointFormat.decode value >>= _) = _
    rw [h]
    rfl

theorem IsRecord.decode_encode {αs : List Type} {event : HostEvent} {format : RecordFormat αs}
    {values : Tuple αs} (h : event.IsRecord format values) :
    codec.decode (codec.encode event) = .ok event := by
  obtain ⟨hkind, hnames⟩ := List.nodup_cons.1 h.nodup
  obtain ⟨held, hheld, hwrites⟩ := Fields.exists_held h.keeps values
  have hbeside : kindField ∉ (format.fields.encode values).map Prod.fst := by
    rw [(Fields.writes_encode h.lawful values).map_fst]
    exact hkind
  have hsplit : splitKind none ((.string kindField, .string event.kind.name) ::
      (format.fields.encode values).map fun member ↦ (.string member.1, member.2)) =
        .ok (some event.kind, held.map fun member ↦ (.string member.1, member.2)) := by
    rw [splitKind]
    simp only [if_true, Option.isSome_none, decodeKind_name]
    exact splitKind_of_held event.kind hheld hbeside
  change decode (.map (_ :: event.members.map _)) = _
  rw [h.members, decode, hsplit]
  exact h.content _ (RecordFormat.decode_of_writes hnames hwrites)

theorem codec_lawful : codec.Lawful 2 where
  plain event := by
    obtain ⟨αs, format, values, h⟩ := event.exists_isRecord
    refine .map (List.forall_mem_cons.2 ⟨.string event.kind.name, ?_⟩)
    rw [h.members]
    exact Fields.plain_of_mem_encode h.lawful values
  decode_encode event := by
    obtain ⟨αs, format, values, h⟩ := event.exists_isRecord
    exact h.decode_encode

end HostEvent

/-! ## Texts -/

namespace Data

/-- Whether all that is written in a form is read back, from the text and from its bytes, and what
was read from any text is written in one way from then on. -/
structure Codec.Restores {α : Type} (codec : Codec α) (write : Codec α → α → String) : Prop where
  decodeText_write (value : α) : Json.decodeText codec (write codec value) = .ok value
  decodeBytes_write (value : α) :
    Json.decodeBytes codec (write codec value).toUTF8.toList = .ok value
  write_again (text : String) (value : α) : Json.decodeText codec text = .ok value →
    ∃ again, Json.decodeText codec (write codec value) = .ok again ∧ again = value ∧
      write codec again = write codec value

/-- Whether all that is written is read back from both forms. -/
structure Codec.RoundTrips {α : Type} (codec : Codec α) : Prop where
  compact : codec.Restores Json.encodeCompact
  pretty : codec.Restores Json.encodePretty

theorem Codec.Lawful.restores {α : Type} {codec : Codec α} {levels : Nat}
    (h : codec.Lawful levels) (hlevels : levels < Json.maxDepth) (layout : Json.Layout)
    {write : Codec α → α → String}
    (hwrite : ∀ value, layout.write (codec.encode value) = write codec value) :
    codec.Restores write := by
  have hback (value : α) : Json.decodeText codec (write codec value) = .ok value := by
    rw [← hwrite, decodeText_write h hlevels]
  exact ⟨hback, fun value ↦ (decodeBytes_toUTF8 codec _).trans (hback value),
    fun _ value _ ↦ ⟨value, hback value, rfl, rfl⟩⟩

theorem Codec.Lawful.roundTrips {α : Type} {codec : Codec α} {levels : Nat}
    (h : codec.Lawful levels) (hlevels : levels < Json.maxDepth) : codec.RoundTrips :=
  ⟨h.restores hlevels .dense fun _ ↦ Json.Layout.write_dense _,
    h.restores hlevels .lined fun _ ↦ Json.Layout.write_lined _⟩

end Data

/-- All that is stored or exchanged is read back from its compact and its pretty form: catalogs,
reports, tables, partitions of requests, files of manifests, manifests, requests, events and lists
of snapshots. -/
theorem written_is_read_back :
    Catalog.codec.RoundTrips ∧ Report.codec.RoundTrips ∧ Table.codec.RoundTrips ∧
      PartitionAppend.codec.RoundTrips ∧ DataFile.codec.RoundTrips ∧ Manifest.codec.RoundTrips ∧
      AppendRequest.codec.RoundTrips ∧ HostEvent.codec.RoundTrips ∧
      (Codec.list Snapshot.codec).RoundTrips :=
  ⟨Catalog.codec_lawful.roundTrips (by decide), Report.codec_lawful.roundTrips (by decide),
    Table.codec_lawful.roundTrips (by decide), PartitionAppend.codec_lawful.roundTrips (by decide),
    DataFile.codec_lawful.roundTrips (by decide), Manifest.codec_lawful.roundTrips (by decide),
    AppendRequest.codec_lawful.roundTrips (by decide),
    HostEvent.codec_lawful.roundTrips (by decide), snapshots_lawful.roundTrips (by decide)⟩

end CommitCoordinator
