import TekkGram.Notifiers.Media

/-!
# Albums and the loops that gather them

An album is a list of stored media, each entry one file with its names, URLs and
ratio. The six lists of a loop are meant to be the columns of an album. This file
states what one iteration does to the lists and derives what a whole loop leaves:
the columns of an album when every call of storage returned, and lists of
different lengths when one failed.
-/

namespace TekkGram

open Interaction Async

/-- One stored file: its thumbnail, its name in storage, its listed name and its URLs. -/
structure MediaEntry where
  thumbnail : Uint8List
  storageId : String
  fileName : String
  thumbnailUrl : String
  fileUrl : String
  deriving DecidableEq, Repr

/-- The file that an entry shows. -/
def MediaEntry.file (e : MediaEntry) : File := e.thumbnail.source

/-- Both objects of an entry are stored, and its URLs serve them. -/
structure MediaEntry.StoredIn (w : World) (userId folder : String) (e : MediaEntry) : Prop where
  thumbnail : w.storage (thumbnailReference userId e.storageId) = some (.data e.thumbnail)
  original : w.storage ⟨userId, folder, e.storageId⟩ = some (.file e.file)
  thumbnailUrl : (e.thumbnailUrl, thumbnailReference userId e.storageId) ∈ w.urls
  fileUrl : (e.fileUrl, ⟨userId, folder, e.storageId⟩) ∈ w.urls

/-- The columns of an album. -/
def MediaLists.ofAlbum (album : List MediaEntry) : MediaLists where
  thumbnailStorageIdList := album.map (·.storageId)
  originalStorageIdList := album.map (·.storageId)
  fileNameList := album.map (·.fileName)
  thumbnailAspectRatioList := album.map (·.thumbnail.aspectRatio)
  thumbnailUrlList := album.map (·.thumbnailUrl)
  originalUrlList := album.map (·.fileUrl)

/-- Extend every list by one entry. -/
def MediaLists.push (l : MediaLists) (e : MediaEntry) : MediaLists where
  thumbnailStorageIdList := l.thumbnailStorageIdList ++ [e.storageId]
  originalStorageIdList := l.originalStorageIdList ++ [e.storageId]
  fileNameList := l.fileNameList ++ [e.fileName]
  thumbnailAspectRatioList := l.thumbnailAspectRatioList ++ [e.thumbnail.aspectRatio]
  thumbnailUrlList := l.thumbnailUrlList ++ [e.thumbnailUrl]
  originalUrlList := l.originalUrlList ++ [e.fileUrl]

theorem MediaLists.push_ofAlbum (album : List MediaEntry) (e : MediaEntry) :
    (ofAlbum album).push e = ofAlbum (album ++ [e]) := by
  simp only [ofAlbum, push, List.map_append, List.map_singleton]

/-- Nothing but media was added: documents stay, and so does every object whose name was
already drawn. -/
structure World.Grows (w w' : World) : Prop where
  firestore : w'.firestore = w.firestore
  uuids : w.uuids ⊆ w'.uuids
  urls : w.urls ⊆ w'.urls
  kept : ∀ ref : Reference, ref.name ∈ w.uuids → w'.storage ref = w.storage ref

section Grows

variable {w w' w'' : World}

theorem World.Grows.refl : w.Grows w :=
  ⟨rfl, List.Subset.refl _, List.Subset.refl _, fun _ _ => rfl⟩

theorem World.Grows.trans (h : w.Grows w') (h' : w'.Grows w'') : w.Grows w'' where
  firestore := h'.firestore.trans h.firestore
  uuids := List.Subset.trans h.uuids h'.uuids
  urls := List.Subset.trans h.urls h'.urls
  kept ref href := (h'.kept ref (h.uuids href)).trans (h.kept ref href)

theorem World.Grows.setLoading (h : w.Grows w') (n : Notifier) (v : Bool) :
    w.Grows (w'.setLoading n v) := ⟨h.firestore, h.uuids, h.urls, h.kept⟩

theorem World.Grows.draw (h : w.Grows w') (name : String) : w.Grows (w'.draw name) :=
  ⟨h.firestore, fun _ hn => List.mem_cons_of_mem _ (h.uuids hn), h.urls, h.kept⟩

/-- Storing under a name that is new to the first world adds media to it. -/
theorem World.Grows.storesUnder {name : String} (h : w.Grows w') (hs : w'.StoresUnder name w'')
    (hname : name ∉ w.uuids) : w.Grows w'' where
  firestore := hs.firestore.trans h.firestore
  uuids _ hn := hs.uuids ▸ h.uuids hn
  urls := List.Subset.trans h.urls hs.urls
  kept ref href := by
    have hne : ref.name ≠ name := by
      rintro rfl
      exact hname href
    exact (hs.other ref hne).trans (h.kept ref href)

/-- An entry whose name was drawn stays stored. -/
theorem MediaEntry.StoredIn.grows {userId folder : String} {e : MediaEntry}
    (he : e.StoredIn w userId folder) (hid : e.storageId ∈ w.uuids) (h : w.Grows w') :
    e.StoredIn w' userId folder where
  thumbnail := (h.kept _ hid).trans he.thumbnail
  original := (h.kept _ hid).trans he.original
  thumbnailUrl := h.urls he.thumbnailUrl
  fileUrl := h.urls he.fileUrl

end Grows

/-- An id drawn since `w₀` under which the referenced object exists. -/
structure FreshObject (w₀ w : World) (ref : Reference) : Prop where
  fresh : ref.name ∉ w₀.uuids
  drawn : ref.name ∈ w.uuids
  exist : (w.storage ref).isSome

theorem FreshObject.grows {w₀ w w' : World} {ref : Reference} (h : FreshObject w₀ w ref)
    (hg : w.Grows w') : FreshObject w₀ w' ref :=
  ⟨h.fresh, hg.uuids h.drawn, by rw [hg.kept ref h.drawn]; exact h.exist⟩

theorem FreshObject.of_grows {w₀ w w' : World} {ref : Reference} (hg : w₀.Grows w)
    (h : FreshObject w w' ref) : FreshObject w₀ w' ref :=
  ⟨fun hn => h.fresh (hg.uuids hn), h.drawn, h.exist⟩

/-- A trace in which every decoder found a picture and storage was not used. -/
def Quiet (tr : List AppEvent) : Prop :=
  ¬ Returned Undecoded tr ∧ ¬ Raised Call.Stores tr ∧ ¬ Returned FetchedOriginal tr

/-- What an iteration over one file can do to the lists, from `w` to `w'`. -/
inductive Processed (w w' : World) (userId folder : String) (file : File)
    (tr : List AppEvent) (l : MediaLists) : MediaLists → Prop
  | skipped (hundecoded : Returned Undecoded tr) (hraised : ¬ Raised Call.Stores tr)
      (hfetched : ¬ Returned FetchedOriginal tr) : Processed w w' userId folder file tr l l
  | interrupted (ratio : ℚ) (fileName : String) {ids urls originals : List String}
      (hundecoded : ¬ Returned Undecoded tr) (hraised : Raised Call.Stores tr)
      (hfetched : ¬ Returned FetchedOriginal tr) (horiginals : originals.length ≤ urls.length)
      (hurls : urls.length ≤ ids.length) (hlength : ids.length ≤ 1)
      (hids : ∀ id ∈ ids, FreshObject w w' (thumbnailReference userId id))
      (hobjects : ∀ id ∈ originals, FreshObject w w' ⟨userId, folder, id⟩) :
      Processed w w' userId folder file tr l
        { thumbnailStorageIdList := l.thumbnailStorageIdList ++ ids
          originalStorageIdList := l.originalStorageIdList ++ originals
          fileNameList := l.fileNameList ++ [fileName]
          thumbnailAspectRatioList := l.thumbnailAspectRatioList ++ [ratio]
          thumbnailUrlList := l.thumbnailUrlList ++ urls
          originalUrlList := l.originalUrlList }
  | stored (e : MediaEntry) (hundecoded : ¬ Returned Undecoded tr)
      (hraised : ¬ Raised Call.Stores tr) (hfetched : Returned FetchedOriginal tr)
      (hfile : e.file = file) (hfresh : e.storageId ∉ w.uuids) (hdrawn : e.storageId ∈ w'.uuids)
      (hstored : e.StoredIn w' userId folder) :
      Processed w w' userId folder file tr l (l.push e)

/-- What a loop over `files` has gathered in its lists, from `w₀` to `w`. -/
structure Gathered (w₀ w : World) (userId folder : String) (files : List File)
    (tr : List AppEvent) (l : MediaLists) : Prop where
  grows : w₀.Grows w
  thumbnailIds : ∀ id ∈ l.thumbnailStorageIdList, FreshObject w₀ w (thumbnailReference userId id)
  originalIds : ∀ id ∈ l.originalStorageIdList, FreshObject w₀ w ⟨userId, folder, id⟩
  urls_le : l.originalUrlList.length ≤ l.thumbnailUrlList.length
  ratios_le : l.thumbnailUrlList.length ≤ l.thumbnailAspectRatioList.length
  fetched : Returned FetchedOriginal tr ↔ l.originalUrlList ≠ []
  interrupted : Raised Call.Stores tr →
    l.originalUrlList.length < l.thumbnailAspectRatioList.length
  skipped : Returned Undecoded tr → l.thumbnailAspectRatioList.length < files.length
  decoded : ¬ Returned Undecoded tr → l.thumbnailAspectRatioList.length = files.length
  album : ¬ Raised Call.Stores tr → ∃ album : List MediaEntry, l = .ofAlbum album ∧
    (∀ e ∈ album, e.storageId ∈ w.uuids ∧ e.StoredIn w userId folder) ∧
    (album.map MediaEntry.file).Sublist files

theorem Gathered.nil {w₀ : World} {userId folder : String} :
    Gathered w₀ w₀ userId folder [] [] .empty where
  grows := .refl
  thumbnailIds := by simp [MediaLists.empty]
  originalIds := by simp [MediaLists.empty]
  urls_le := by simp [MediaLists.empty]
  ratios_le := by simp [MediaLists.empty]
  fetched := by simp [MediaLists.empty]
  interrupted := by simp
  skipped := by simp
  decoded := by simp [MediaLists.empty]
  album _ := ⟨[], rfl, by simp, .slnil⟩

section Step

variable {w₀ w w' : World} {userId folder : String} {files : List File} {file : File}
  {tr tr' : List AppEvent} {l : MediaLists}

/-- A skipped file leaves the lists as they were. -/
theorem Gathered.skip (h : Gathered w₀ w userId folder files tr l) (hg : w.Grows w')
    (hundecoded : Returned Undecoded tr') (hraised : ¬ Raised Call.Stores tr')
    (hfetched : ¬ Returned FetchedOriginal tr') :
    Gathered w₀ w' userId folder (files ++ [file]) (tr ++ tr') l := by
  have hlength : l.thumbnailAspectRatioList.length ≤ files.length := by
    by_cases hu : Returned Undecoded tr
    · exact (h.skipped hu).le
    · exact (h.decoded hu).le
  refine
    { grows := h.grows.trans hg
      thumbnailIds := fun id hid => (h.thumbnailIds id hid).grows hg
      originalIds := fun id hid => (h.originalIds id hid).grows hg
      urls_le := h.urls_le
      ratios_le := h.ratios_le
      fetched := by rw [returned_append, or_iff_left hfetched, h.fetched]
      interrupted := fun hr => h.interrupted ((raised_append.mp hr).resolve_right hraised)
      skipped := fun _ => by rw [List.length_append, List.length_singleton]; omega
      decoded := fun hu => absurd (returned_append.mpr (.inr hundecoded)) hu
      album := fun hr => ?_ }
  obtain ⟨album, hl, hstored, hsub⟩ := h.album fun hr' => hr (raised_append.mpr (.inl hr'))
  refine ⟨album, hl, fun e he => ?_, hsub.trans (List.sublist_append_left _ _)⟩
  obtain ⟨hdrawn, he⟩ := hstored e he
  exact ⟨hg.uuids hdrawn, he.grows hdrawn hg⟩

/-- A stored file extends every list by its entry. -/
theorem Gathered.store (h : Gathered w₀ w userId folder files tr l) (hg : w.Grows w')
    {e : MediaEntry} (hundecoded : ¬ Returned Undecoded tr') (hraised : ¬ Raised Call.Stores tr')
    (hfetched : Returned FetchedOriginal tr') (hfile : e.file = file)
    (hfresh : e.storageId ∉ w.uuids) (hdrawn : e.storageId ∈ w'.uuids)
    (hstored : e.StoredIn w' userId folder) :
    Gathered w₀ w' userId folder (files ++ [file]) (tr ++ tr') (l.push e) := by
  have hnew : e.storageId ∉ w₀.uuids := fun hn => hfresh (h.grows.uuids hn)
  refine
    { grows := h.grows.trans hg
      thumbnailIds := ?_
      originalIds := ?_
      urls_le := by simpa [MediaLists.push] using h.urls_le
      ratios_le := by simpa [MediaLists.push] using h.ratios_le
      fetched := by simp [MediaLists.push, hfetched]
      interrupted := ?_
      skipped := ?_
      decoded := ?_
      album := ?_ }
  · intro id hid
    rcases List.mem_append.mp hid with hid | hid
    · exact (h.thumbnailIds id hid).grows hg
    · rw [List.mem_singleton.mp hid]
      exact ⟨hnew, hdrawn, by rw [hstored.thumbnail]; rfl⟩
  · intro id hid
    rcases List.mem_append.mp hid with hid | hid
    · exact (h.originalIds id hid).grows hg
    · rw [List.mem_singleton.mp hid]
      exact ⟨hnew, hdrawn, by rw [hstored.original]; rfl⟩
  · intro hr
    have hlt := h.interrupted ((raised_append.mp hr).resolve_right hraised)
    simpa [MediaLists.push] using hlt
  · intro hu
    have hlt := h.skipped ((returned_append.mp hu).resolve_right hundecoded)
    simpa [MediaLists.push] using hlt
  · intro hu
    have heq := h.decoded fun hu' => hu (returned_append.mpr (.inl hu'))
    simpa [MediaLists.push] using heq
  · intro hr
    obtain ⟨album, rfl, hall, hsub⟩ := h.album fun hr' => hr (raised_append.mpr (.inl hr'))
    refine ⟨album ++ [e], MediaLists.push_ofAlbum album e, fun e' he' => ?_, ?_⟩
    · rcases List.mem_append.mp he' with he' | he'
      · obtain ⟨hdrawn', he'⟩ := hall e' he'
        exact ⟨hg.uuids hdrawn', he'.grows hdrawn' hg⟩
      · rw [List.mem_singleton.mp he']
        exact ⟨hdrawn, hstored⟩
    · rw [List.map_append, List.map_singleton, hfile]
      exact hsub.append (List.Sublist.refl _)

/-- A file whose storing failed leaves lists of different lengths. -/
theorem Gathered.interrupt (h : Gathered w₀ w userId folder files tr l) (hg : w.Grows w')
    (ratio : ℚ) (fileName : String) {ids urls originals : List String}
    (hundecoded : ¬ Returned Undecoded tr') (hraised : Raised Call.Stores tr')
    (hfetched : ¬ Returned FetchedOriginal tr') (hurls : urls.length ≤ ids.length)
    (hlength : ids.length ≤ 1)
    (hids : ∀ id ∈ ids, FreshObject w w' (thumbnailReference userId id))
    (hobjects : ∀ id ∈ originals, FreshObject w w' ⟨userId, folder, id⟩) :
    Gathered w₀ w' userId folder (files ++ [file]) (tr ++ tr')
      { thumbnailStorageIdList := l.thumbnailStorageIdList ++ ids
        originalStorageIdList := l.originalStorageIdList ++ originals
        fileNameList := l.fileNameList ++ [fileName]
        thumbnailAspectRatioList := l.thumbnailAspectRatioList ++ [ratio]
        thumbnailUrlList := l.thumbnailUrlList ++ urls
        originalUrlList := l.originalUrlList } := by
  have hurls_le := h.urls_le
  have hratios_le := h.ratios_le
  refine
    { grows := h.grows.trans hg
      thumbnailIds := ?_
      originalIds := ?_
      urls_le := by simp only [List.length_append]; omega
      ratios_le := by simp only [List.length_append, List.length_singleton]; omega
      fetched := by rw [returned_append, or_iff_left hfetched, h.fetched]
      interrupted := fun _ => by simp only [List.length_append, List.length_singleton]; omega
      skipped := ?_
      decoded := ?_
      album := fun hr => absurd (raised_append.mpr (.inr hraised)) hr }
  · intro id hid
    rcases List.mem_append.mp hid with hid | hid
    · exact (h.thumbnailIds id hid).grows hg
    · exact (hids id hid).of_grows h.grows
  · intro id hid
    rcases List.mem_append.mp hid with hid | hid
    · exact (h.originalIds id hid).grows hg
    · exact (hobjects id hid).of_grows h.grows
  · intro hu
    have hlt := h.skipped ((returned_append.mp hu).resolve_right hundecoded)
    simpa only [List.length_append, List.length_singleton] using Nat.succ_lt_succ hlt
  · intro hu
    have heq := h.decoded fun hu' => hu (returned_append.mpr (.inl hu'))
    simpa only [List.length_append, List.length_singleton] using congrArg Nat.succ heq

/-- One iteration keeps what the loop has gathered. -/
theorem Gathered.step {l' : MediaLists} (h : Gathered w₀ w userId folder files tr l)
    (hg : w.Grows w') (hp : Processed w w' userId folder file tr' l l') :
    Gathered w₀ w' userId folder (files ++ [file]) (tr ++ tr') l' := by
  cases hp with
  | skipped hundecoded hraised hfetched => exact h.skip hg hundecoded hraised hfetched
  | interrupted ratio fileName hundecoded hraised hfetched horiginals hurls hlength hids hobjects =>
    exact h.interrupt hg ratio fileName hundecoded hraised hfetched hurls hlength hids hobjects
  | stored e hundecoded hraised hfetched hfile hfresh hdrawn hstored =>
    exact h.store hg hundecoded hraised hfetched hfile hfresh hdrawn hstored

end Step

/-- Quiet calls around a loop do not change what it gathered. -/
theorem Gathered.around {w₀ w : World} {userId folder : String} {files : List File}
    {tr : List AppEvent} {l : MediaLists} (h : Gathered w₀ w userId folder files tr l)
    (pre post : List AppEvent) (hpre : Quiet pre) (hpost : Quiet post) :
    Gathered w₀ w userId folder files (pre ++ (tr ++ post)) l := by
  obtain ⟨hu, hr, hf⟩ := hpre
  obtain ⟨hu', hr', hf'⟩ := hpost
  have hundecoded : Returned Undecoded (pre ++ (tr ++ post)) ↔ Returned Undecoded tr := by
    simp [hu, hu']
  have hraised : Raised Call.Stores (pre ++ (tr ++ post)) ↔ Raised Call.Stores tr := by
    simp [hr, hr']
  have hfetched : Returned FetchedOriginal (pre ++ (tr ++ post)) ↔
      Returned FetchedOriginal tr := by
    simp [hf, hf']
  exact
    { h with
      fetched := hfetched.trans h.fetched
      interrupted := fun hi => h.interrupted (hraised.mp hi)
      skipped := fun hi => h.skipped (hundecoded.mp hi)
      decoded := fun hi => h.decoded fun hi' => hi (hundecoded.mpr hi')
      album := fun hi => h.album fun hi' => hi (hraised.mpr hi') }

/-- What was gathered from a later world was gathered from an earlier one. -/
theorem Gathered.of_grows {w₀ w₁ w : World} {userId folder : String} {files : List File}
    {tr : List AppEvent} {l : MediaLists} (hg : w₀.Grows w₁)
    (h : Gathered w₁ w userId folder files tr l) : Gathered w₀ w userId folder files tr l :=
  { h with
    grows := hg.trans h.grows
    thumbnailIds := fun id hid => (h.thumbnailIds id hid).of_grows hg
    originalIds := fun id hid => (h.originalIds id hid).of_grows hg }

/-- A loop over media calls whose every iteration processes its file gathers the files, and
writes no document. -/
theorem forEach_gathered {f : File → Action MediaLists Unit} {userId folder : String}
    (hf : ∀ (file : File) (l : MediaLists) (w : World), (f file).wp World.step
      (fun tr out l' w' => w.Grows w' ∧
        Ends (fun _ => Processed w w' userId folder file tr l l') (fun _ => True) out) l w)
    (hcalls : ∀ file, (f file).Calls Call.Media) (files : List File) (w₀ : World) :
    (forEach files f).wp World.step (fun tr out l w => w₀.Grows w ∧
      (∀ path id, ¬ Returned (Writes path id) tr) ∧
      Ends (fun _ => Gathered w₀ w userId folder files tr l) (fun _ => True) out) .empty w₀ := by
  have hloop : (forEach files f).wp World.step (fun tr out l w => w₀.Grows w ∧
      Ends (fun _ => Gathered w₀ w userId folder files tr l) (fun _ => True) out) .empty w₀ := by
    refine wp_forEach (fun before tr l w => Gathered w₀ w userId folder before tr l) .nil ?_ ?_
    · intro before file after tr l w _ hi
      refine wp_mono (hf file l w) ?_
      rintro tr' out l' w' ⟨hg, hout⟩
      cases out with
      | ok _ => exact hi.step hg hout
      | error e => exact ⟨hi.grows.trans hg, trivial⟩
    · intro tr l w hi
      exact ⟨hi.grows, hi⟩
  refine wp_mono (wp_and hloop (wp_calls (calls_forEach fun file _ => hcalls file) _ _)) ?_
  rintro tr out l w ⟨⟨hg, hout⟩, hmedia⟩
  exact ⟨hg, fun path id => not_returned_of_calls hmedia fun c a hc => hc.not_writes path id a,
    hout⟩

/-- A loop whose every iteration lists what it stores lists exactly what it has stored. -/
theorem forEach_puts {f : File → Action MediaLists Unit} {userId folder : String}
    (hf : ∀ (file : File) (l : MediaLists) (w : World), (f file).wp World.step
      (fun tr _ l' _ => ListsPuts userId folder tr l l') l w)
    (files : List File) (w₀ : World) :
    (forEach files f).wp World.step
      (fun tr _ l _ => ∀ ref, ref ∈ l.media userId folder ↔ Returned (Puts ref) tr) .empty w₀ := by
  refine wp_forEach
    (fun _ tr l _ => ∀ ref, ref ∈ l.media userId folder ↔ Returned (Puts ref) tr) ?_ ?_ ?_
  · intro ref
    simp [MediaLists.mem_media, MediaLists.empty]
  · intro before file after tr l w _ hi
    refine wp_mono (hf file l w) ?_
    intro tr' out l' w' hputs
    have hnext : ∀ ref, ref ∈ l'.media userId folder ↔ Returned (Puts ref) (tr ++ tr') := by
      intro ref
      rw [hputs ref, hi ref, returned_append]
    cases out with
    | ok _ => exact hnext
    | error e => exact hnext
  · intro tr l w hi
    exact hi

/-- Quiet calls before an iteration do not change what it did. -/
theorem Processed.prepend {w w' : World} {userId folder : String} {file : File}
    {tr : List AppEvent} {l l' : MediaLists} (h : Processed w w' userId folder file tr l l')
    (pre : List AppEvent) (hq : Quiet pre) :
    Processed w w' userId folder file (pre ++ tr) l l' := by
  obtain ⟨hu, hr, hf⟩ := hq
  cases h with
  | skipped hundecoded hraised hfetched =>
    exact .skipped (by simp [hundecoded]) (by simp [hr, hraised]) (by simp [hf, hfetched])
  | interrupted ratio fileName hundecoded hraised hfetched horiginals hurls hlength hids hobjects =>
    exact .interrupted ratio fileName (by simp [hu, hundecoded]) (by simp [hraised])
      (by simp [hf, hfetched]) horiginals hurls hlength hids hobjects
  | stored e hundecoded hraised hfetched hfile hfresh hdrawn hstored =>
    exact .stored e (by simp [hu, hundecoded]) (by simp [hr, hraised]) (by simp [hfetched])
      hfile hfresh hdrawn hstored

/-- Storing one file after its ratio and its names are listed processes the file. -/
theorem storeMedia_processed {userId folder : String} (hfolder : folder ≠ thumbnails)
    {thumbnail : Uint8List} {file : File} (hsource : thumbnail.source = file)
    {name : String} (listedName : String) (l : MediaLists) {w w₁ : World} (hg : w.Grows w₁)
    (hfresh : name ∉ w.uuids) (hdrawn : name ∈ w₁.uuids) :
    (storeMedia userId folder name thumbnail file).wp World.step
      (fun tr out l' w' => w.Grows w' ∧ Processed w w' userId folder file tr l l' ∧
        ((out = .ok () ∧ ¬ Raised Call.Stores tr) ∨ ∃ e, out = .error e))
      { l with
        thumbnailAspectRatioList := l.thumbnailAspectRatioList ++ [thumbnail.aspectRatio]
        fileNameList := l.fileNameList ++ [listedName] } w₁ := by
  subst hsource
  refine wp_mono (storeMedia_spec hfolder thumbnail _ _ w₁) ?_
  rintro tr out l' w' ⟨hundecoded, hunder, hcase⟩
  refine ⟨hg.storesUnder hunder hfresh, ?_⟩
  have hname : name ∈ w'.uuids := by
    rw [hunder.uuids]
    exact hdrawn
  rcases hcase with ⟨thumbUrl, orgUrl, rfl, hraised, hfetched, rfl, ht, ho, htu, hou⟩ |
    ⟨e, ids, urls, originals, rfl, hraised, hfetched, rfl, horiginals, hurls, hlength, hids,
      hobjects⟩
  · refine ⟨?_, .inl ⟨rfl, hraised⟩⟩
    exact .stored ⟨thumbnail, name, listedName, thumbUrl, orgUrl⟩ hundecoded hraised hfetched
      rfl hfresh hname ⟨ht, ho, htu, hou⟩
  · refine ⟨?_, .inr ⟨e, rfl⟩⟩
    refine .interrupted thumbnail.aspectRatio listedName hundecoded hraised hfetched horiginals
      hurls hlength (fun id hid => ?_) fun id hid => ?_
    · obtain ⟨rfl, hexist⟩ := hids id hid
      exact ⟨hfresh, hname, hexist⟩
    · obtain ⟨rfl, hexist⟩ := hobjects id hid
      exact ⟨hfresh, hname, hexist⟩

/-- What the shared rest of an iteration can do: raise before it stores, or process the file. -/
theorem storeListedMedia_spec {userId folder : String} (hfolder : folder ≠ thumbnails)
    {thumbnail : Uint8List} {file : File} (hsource : thumbnail.source = file) (l : MediaLists)
    (w : World) :
    (storeListedMedia userId folder thumbnail file).wp World.step
      (fun tr out l' w' => w.Grows w' ∧
        Ends (fun _ => Processed w w' userId folder file tr l l') (fun _ => True) out) l w := by
  unfold storeListedMedia
  rw [wp_bind, wp_getAspectRatio]
  refine ⟨⟨.refl, trivial⟩, ?_⟩
  rw [ends_ok, wp_bind, wp_modify, ends_ok, wp_bind, wp_uuidV4]
  intro fileName hfresh
  rw [ends_ok, wp_bind, wp_uuidV4]
  intro listedName _
  rw [ends_ok, wp_bind, wp_modify, ends_ok, wp_swallow]
  have hg : w.Grows ((w.draw fileName).draw listedName) := (World.Grows.refl.draw _).draw _
  refine wp_mono (storeMedia_processed hfolder hsource listedName l hg hfresh (by simp)) ?_
  rintro tr out l' w' ⟨hgrows, hprocessed, -⟩
  have hall := hprocessed.prepend [⟨.getAspectRatio thumbnail, .ok thumbnail.aspectRatio⟩,
    ⟨.uuidV4, .ok fileName⟩, ⟨.uuidV4, .ok listedName⟩] (by simp [Quiet])
  exact ⟨hgrows, hall⟩

/-- The shared rest of an iteration lists what it stores. -/
theorem storeListedMedia_puts (userId folder : String) (thumbnail : Uint8List) (file : File)
    (l : MediaLists) (w : World) :
    (storeListedMedia userId folder thumbnail file).wp World.step
      (fun tr _ l' _ => ListsPuts userId folder tr l l') l w := by
  unfold storeListedMedia
  rw [wp_bind, wp_getAspectRatio]
  refine ⟨fun ref => by simp, ?_⟩
  rw [ends_ok, wp_bind, wp_modify, ends_ok, wp_bind, wp_uuidV4]
  intro fileName _
  rw [ends_ok, wp_bind, wp_uuidV4]
  intro listedName _
  rw [ends_ok, wp_bind, wp_modify, ends_ok, wp_swallow]
  refine wp_mono (storeMedia_puts userId folder fileName thumbnail file _ _) ?_
  intro tr out l' w' hputs ref
  have hstored : ListsPuts userId folder tr l l' := hputs
  simpa using hstored ref

end TekkGram
