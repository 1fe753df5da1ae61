import CommitCoordinator.Proofs.Storage.ExactListing

/-!
# Where the keys of listings lie

A listing at a location looks for the directories at the location and below it, and refuses all
others. The key that it looks for has the segments of the root and those behind the location, both
in their escaped form. So it lies at the root or below it exactly if nothing in the root has to be
escaped.
-/

namespace CommitCoordinator.Storage

/-- Whether a directory is the text of a location or goes on behind a slash. -/
def IsWithin (base directory : String) : Prop :=
  ∃ rest, directory.toList = base.toList ++ rest ∧ (rest = [] ∨ rest.head? = some '/')

/-- Whether a key is another one or continues it by further segments. -/
def IsAtOrBelow (root key : String) : Prop :=
  ∃ more, (∀ segment ∈ more, IsSegment segment) ∧
    key.toList = joined (keyParts root.toList ++ more)

theorem isAtOrBelow_iff {root key : String} {segments more : List (List Char)}
    (hsegments : ∀ segment ∈ segments ++ more, IsSegment segment)
    (hlength : segments.length = (keyParts root.toList).length)
    (hkey : key.toList = joined (segments ++ more)) :
    IsAtOrBelow root key ↔ segments = keyParts root.toList := by
  constructor
  · rintro ⟨others, hothers, hroot⟩
    have hall : ∀ segment ∈ keyParts root.toList ++ others, IsSegment segment :=
      fun segment hmem ↦ (List.mem_append.1 hmem).elim isSegment_of_mem_keyParts
        (hothers segment)
    have hparts := congrArg keyParts (hkey.symm.trans hroot)
    rw [keyParts_joined hsegments, keyParts_joined hall] at hparts
    exact (List.append_inj hparts hlength).1
  · rintro rfl
    exact ⟨more, fun segment hmem ↦ hsegments segment (List.mem_append_right _ hmem), hkey⟩

theorem map_keySegment_eq_self_iff {segments : List (List Char)} :
    segments.map keySegment = segments ↔ ∀ segment ∈ segments, IsPlain segment := by
  simp only [← keySegment_eq_self_iff]
  have hmap := List.map_inj_left (l := segments) (f := keySegment) (g := id)
  rwa [List.map_id] at hmap

namespace ObjectListing

variable {listing : ObjectListing} {location : String}

theorem keyText_outside {directory : String} (h : ¬IsWithin listing.base directory) :
    listing.keyText directory = .error (.outsideLocation directory listing.base) := by
  unfold keyText
  extract_lets outside base rest text
  split
  · next hstarts =>
    obtain ⟨tail, htail⟩ := List.isPrefixOf_iff_prefix.1 hstarts
    have hrest : rest = tail := by
      rw [show rest = directory.toList.drop base.length from rfl, ← htail, List.drop_left]
    exact if_neg fun hboundary ↦ h ⟨tail, htail.symm, hrest ▸ hboundary⟩
  · rfl

/-- The key for a directory within a location has the segments of the root and those behind the
location, escaped; it is the root or lies below it exactly if no segment of the root changes by
that. All other directories are refused. -/
theorem directoryKey_of_within [Url.DomainNames]
    (hlisting : atLocation location = .ok listing) :
    (∀ (directory : String) (rest : List Char),
      directory.toList = (trimTrailingSlashes location).toList ++ rest →
      (rest = [] ∨ rest.head? = some '/') →
      ∃ key, listing.directoryKey directory = .ok key ∧
        key.toList = joined ((keyParts listing.root.toList ++ keyParts rest).map keySegment) ∧
        (IsAtOrBelow listing.root key ↔
          ∀ segment ∈ keyParts listing.root.toList, IsPlain segment)) ∧
    ((∀ segment ∈ keyParts listing.root.toList, IsPlain segment) →
      listing.directoryKey (trimTrailingSlashes location) = .ok listing.root) ∧
    ∀ directory, ¬IsWithin (trimTrailingSlashes location) directory →
      listing.directoryKey directory =
        .error (.outsideLocation directory (trimTrailingSlashes location)) := by
  obtain ⟨hbase, hroot⟩ := of_atLocation hlisting
  rw [← hbase]
  refine ⟨?_, fun hplain ↦ ?_, fun directory houtside ↦ ?_⟩
  · intro directory rest hdirectory hboundary
    obtain ⟨text, htext, hparts⟩ := keyText_within hdirectory hboundary
    have hkey := toList_keyOfText text
    rw [hparts] at hkey
    refine ⟨keyOfText text, by rw [directoryKey, htext]; rfl, hkey, ?_⟩
    rw [List.map_append] at hkey
    rw [isAtOrBelow_iff _ (List.length_map keySegment) hkey, map_keySegment_eq_self_iff]
    intro segment hmem
    rw [← List.map_append] at hmem
    obtain ⟨part, hpart, rfl⟩ := List.mem_map.1 hmem
    exact isSegment_keySegment ((List.mem_append.1 hpart).elim isSegment_of_mem_keyParts
      isSegment_of_mem_keyParts)
  · obtain ⟨text, htext, hparts⟩ :=
      keyText_within (List.append_nil listing.base.toList).symm (.inl rfl)
    rw [keyParts_nil, List.append_nil] at hparts
    have hkey := toList_keyOfText text
    rw [hparts, map_keySegment_eq_self_iff.2 hplain, hroot] at hkey
    rw [directoryKey, htext, ← String.toList_inj.1 hkey]
    rfl
  · rw [directoryKey, keyText_outside houtside]
    rfl

/-- The key of a location with an escaped space has the space itself, which a key may have. -/
theorem directoryKey_of_within_spaced :
    atLocation "s3://bucket/daily%20sums/" = .ok ⟨"s3://bucket/daily%20sums", "daily sums"⟩ ∧
      (⟨"s3://bucket/daily%20sums", "daily sums"⟩ : ObjectListing).directoryKey
        "s3://bucket/daily%20sums" = .ok "daily sums" ∧
      (⟨"s3://bucket/daily%20sums", "daily sums"⟩ : ObjectListing).directoryKey
        "s3://bucket/daily sums/dt=1" =
          .error (.outsideLocation "s3://bucket/daily sums/dt=1" "s3://bucket/daily%20sums") ∧
      ∃ key, (⟨"s3://bucket/daily%20sums", "daily sums"⟩ : ObjectListing).directoryKey
          "s3://bucket/daily%20sums//dt=1" = .ok key ∧ IsAtOrBelow "daily sums" key := by
  have located : atLocation "s3://bucket/daily%20sums/" =
      .ok ⟨"s3://bucket/daily%20sums", "daily sums"⟩ := by
    decide +kernel
  obtain ⟨hwithin, hbase, houtside⟩ := directoryKey_of_within located
  have hplain : ∀ segment ∈ keyParts "daily sums".toList, IsPlain segment := by decide
  obtain ⟨key, hkey, -, hbelow⟩ := hwithin "s3://bucket/daily%20sums//dt=1" "//dt=1".toList
    (by decide +kernel) (by decide)
  refine ⟨located, hbase hplain, houtside _ ?_, key, hkey, hbelow.2 hplain⟩
  rintro ⟨rest, hrest, -⟩
  have hstarts : (trimTrailingSlashes "s3://bucket/daily%20sums/").toList <+:
      "s3://bucket/daily sums/dt=1".toList :=
    ⟨rest, hrest.symm⟩
  exact absurd (List.isPrefixOf_iff_prefix.2 hstarts) (by decide)

/-- The key that is listed for a location with a tilde is neither the root nor below it. -/
theorem directoryKey_beside_root :
    atLocation "http://localhost:9000/bucket/a~b" =
        .ok ⟨"http://localhost:9000/bucket/a~b", "bucket/a~b"⟩ ∧
      (⟨"http://localhost:9000/bucket/a~b", "bucket/a~b"⟩ : ObjectListing).directoryKey
        "http://localhost:9000/bucket/a~b" = .ok "bucket/a%7Eb" ∧
      ¬IsAtOrBelow "bucket/a~b" "bucket/a%7Eb" := by
  refine ⟨by decide +kernel, by decide +kernel, ?_⟩
  have hsegments : ∀ segment ∈ keyParts "bucket/a%7Eb".toList ++ [], IsSegment segment := by
    rw [List.append_nil]
    exact fun _ ↦ isSegment_of_mem_keyParts
  rw [isAtOrBelow_iff hsegments (by decide) (by decide)]
  decide

end ObjectListing

end CommitCoordinator.Storage
