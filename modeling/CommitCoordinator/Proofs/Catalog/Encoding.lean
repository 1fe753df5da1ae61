import CommitCoordinator.Catalog.File
import CommitCoordinator.Checkpoint.Store
import CommitCoordinator.Proofs.Data.Identifier

/-!
# Files that hold catalogs and snapshots

Catalogs and lists of snapshots are written with lawful codecs, so the bytes of a file that was
written for one of them hold just that.
-/

namespace CommitCoordinator

open Data

theorem CommitMode.codec_lawful {levels : Nat} : CommitMode.codec.Lawful levels :=
  Codec.variant_lawful _ _ (by rintro ⟨⟩; rfl)

theorem FileAction.codec_lawful {levels : Nat} : FileAction.codec.Lawful levels :=
  Codec.variant_lawful _ _ (by rintro ⟨⟩; rfl)

theorem Table.codec_lawful : Table.codec.Lawful 1 :=
  Codec.record_lawful
    ⟨Codec.text_lawful, Codec.text_lawful, Codec.text_lawful, Codec.text_lawful, trivial⟩
    (by decide) fun _ ↦ rfl

theorem DataFile.codec_lawful : DataFile.codec.Lawful 1 :=
  Codec.record_lawful
    ⟨Codec.text_lawful, Codec.uint64_lawful, FileAction.codec_lawful, Codec.text_lawful, trivial⟩
    (by decide) fun _ ↦ rfl

theorem Manifest.codec_lawful : Manifest.codec.Lawful 3 :=
  Codec.record_lawful
    ⟨Codec.uuid_lawful, Codec.text_lawful, Codec.text_lawful, CommitMode.codec_lawful,
      Codec.int64_lawful, Codec.list_lawful DataFile.codec_lawful, trivial⟩
    (by decide) fun _ ↦ rfl

theorem PartitionAppend.codec_lawful : PartitionAppend.codec.Lawful 2 :=
  Codec.record_lawful
    ⟨Codec.text_lawful, Codec.text_lawful, CommitMode.codec_lawful,
      Codec.list_lawful Codec.uuid_lawful, trivial⟩
    (by decide) fun _ ↦ rfl

theorem AppendRequest.codec_lawful : AppendRequest.codec.Lawful 4 :=
  Codec.record_lawful
    ⟨Table.codec_lawful.mono (by decide), Codec.list_lawful PartitionAppend.codec_lawful, trivial⟩
    (by decide) fun _ ↦ rfl

theorem PartitionVersion.codec_lawful : PartitionVersion.codec.Lawful 2 :=
  Codec.record_lawful
    ⟨Codec.int64_lawful, CommitMode.codec_lawful, Codec.list_lawful Codec.uuid_lawful, trivial⟩
    (by decide) fun _ ↦ rfl

theorem Catalog.codec_lawful : Catalog.codec.Lawful 5 := by
  have htables : (Codec.sequencedMap id .ok Table.codec).Lawful 2 :=
    Codec.sequencedMap_lawful Table.codec_lawful fun _ ↦ rfl
  have hpartitions : (Codec.sortedMap (.sortedMap PartitionVersion.codec)).Lawful 4 :=
    Codec.sortedMap_lawful (Codec.sortedMap_lawful PartitionVersion.codec_lawful)
  have hmanifests : (Codec.sequencedMap Uuid.hyphenated uuidOfText Manifest.codec).Lawful 4 :=
    Codec.sequencedMap_lawful Manifest.codec_lawful uuidOfText_hyphenated
  exact Codec.record_lawful ⟨htables.mono (by decide), hpartitions, hmanifests, trivial⟩
    (by decide) fun _ ↦ rfl

theorem Snapshot.codec_lawful : Snapshot.codec.Lawful 2 :=
  Codec.record_lawful
    ⟨Codec.uint32_lawful, Codec.int64_lawful, Codec.int64_lawful,
      Codec.list_lawful Codec.text_lawful, trivial⟩
    (by decide) fun _ ↦ rfl

theorem snapshots_lawful : (Codec.list Snapshot.codec).Lawful 3 :=
  Codec.list_lawful Snapshot.codec_lawful

/-- A file that was written for a catalog holds the catalog. -/
@[simp] theorem FileCatalog.decode_encode (path : String) (catalog : Catalog) :
    decode path (encode catalog) = .ok catalog := by
  rw [decode, encode, decodeBytes_encodePretty Catalog.codec_lawful (by decide)]
  rfl

/-- A file that was written for snapshots holds the snapshots. -/
@[simp] theorem FileStore.decode_encode (path : String) (snapshots : List Snapshot) :
    decode path (encode snapshots) = .ok snapshots := by
  rw [decode, encode, decodeBytes_encodePretty snapshots_lawful (by decide)]
  rfl

end CommitCoordinator
