import TekkGram.Interaction.Trace
import TekkGram.Model.Rules

/-!
# Thumbnails and stored media

The three notifiers that store several files share their steps: a thumbnail is
made, the thumbnail and the original are stored under one name, and six lists grow
along the way. This file holds those steps and what each of them can do.
-/

namespace TekkGram

open Interaction Async

/-- The lists that a loop over files extends. -/
structure MediaLists where
  thumbnailStorageIdList : List String
  originalStorageIdList : List String
  fileNameList : List String
  thumbnailAspectRatioList : List ℚ
  thumbnailUrlList : List String
  originalUrlList : List String
  deriving DecidableEq, Repr

/-- The lists before the first file. -/
def MediaLists.empty : MediaLists := ⟨[], [], [], [], [], []⟩

/-- The objects that the lists name, thumbnails first. -/
def MediaLists.media (l : MediaLists) (userId folder : String) : List Reference :=
  l.thumbnailStorageIdList.map (thumbnailReference userId) ++
    l.originalStorageIdList.map fun id => ⟨userId, folder, id⟩

@[simp] theorem thumbnailReference_name (userId name : String) :
    (thumbnailReference userId name).name = name := rfl

theorem MediaLists.mem_media {l : MediaLists} {userId folder : String} {ref : Reference} :
    ref ∈ l.media userId folder ↔
      (∃ id ∈ l.thumbnailStorageIdList, thumbnailReference userId id = ref) ∨
        ∃ id ∈ l.originalStorageIdList, ⟨userId, folder, id⟩ = ref := by
  simp [media]

/-- The objects that a document lists under the field names of a post. -/
def Doc.media (d : Doc) : List Reference :=
  let strings := fun key => ((d.field key).asListOf Scalar.asString).getD []
  match (d.field PostKey.userId).asString with
  | none => []
  | some userId =>
    (strings PostKey.thumbnailStorageId).map (thumbnailReference userId) ++
      (strings PostKey.originalFileStorageId).map fun id =>
        ⟨userId, (FileType.ofStored (d.field PostKey.fileType)).collectionName, id⟩

theorem Doc.media_of_fields {d : Doc} {userId : UserId} {fileType : FileType} {l : MediaLists}
    (huser : d.field PostKey.userId = .string userId)
    (hfileType : d.field PostKey.fileType = .string fileType.name)
    (hthumbnails : d.field PostKey.thumbnailStorageId = .strings l.thumbnailStorageIdList)
    (horiginals : d.field PostKey.originalFileStorageId = .strings l.originalStorageIdList) :
    d.media = l.media userId fileType.collectionName := by
  simp [media, MediaLists.media, huser, hfileType, hthumbnails, horiginals]

/-- A picture's thumbnail; an undecodable file turns the loading flag off and has none. -/
def imageThumbnail {σ : Type} (notifier : Notifier) (file : File) :
    Action σ (Option Uint8List) := do
  let bytes ← await (.readAsBytesSync file)
  let fileAsImage ← await (.decodeImage bytes)
  match fileAsImage with
  | none => do
    await (.setLoading notifier false)
    return none
  | some fileAsImage => do
    let thumbnail ← await (.copyResize fileAsImage Constants.imageThumbnailWidth)
    let thumbnailData ← await (.encodeJpg thumbnail)
    return some thumbnailData

/-- A video's thumbnail; a missing one turns the loading flag off and throws. -/
def videoThumbnail {σ : Type} (notifier : Notifier) (file : File) : Action σ Uint8List := do
  let thumb ← await (.thumbnailData file Constants.videoThumbnailMaxHeight
    Constants.videoThumbnailMaxQuality)
  match thumb with
  | none => do
    await (.setLoading notifier false)
    throw .couldNotBuildThumbnail
  | some thumb => return thumb

/-- Store a thumbnail and its original under one name, extending four lists on the way. -/
def storeMedia (userId folder fileName : String) (thumbnailUint8List : Uint8List) (file : File) :
    Action MediaLists Unit := do
  let thumbnailUploadTask : TaskSnapshot ←
    await (.putData (thumbnailReference userId fileName) thumbnailUint8List)
  modify fun lists => { lists with
    thumbnailStorageIdList := lists.thumbnailStorageIdList ++ [thumbnailUploadTask.ref.name] }
  let thumbUrl : String ← await (.getDownloadURL thumbnailUploadTask.ref)
  modify fun lists => { lists with thumbnailUrlList := lists.thumbnailUrlList ++ [thumbUrl] }
  let originalFileUploadTask : TaskSnapshot ← await (.putFile ⟨userId, folder, fileName⟩ file)
  modify fun lists => { lists with
    originalStorageIdList := lists.originalStorageIdList ++ [originalFileUploadTask.ref.name] }
  let orgUrl : String ← await (.getDownloadURL originalFileUploadTask.ref)
  modify fun lists => { lists with originalUrlList := lists.originalUrlList ++ [orgUrl] }

/-- The rest of an iteration of the upload and the chat loop: the listed file name is
drawn separately from the stored one, and a failure to store is swallowed. -/
def storeListedMedia (userId folder : String) (thumbnailUint8List : Uint8List) (file : File) :
    Action MediaLists Unit := do
  let thumbnailAspectRatio : ℚ ← await (.getAspectRatio thumbnailUint8List)
  modify fun lists => { lists with
    thumbnailAspectRatioList := lists.thumbnailAspectRatioList ++ [thumbnailAspectRatio] }
  let fileName : String ← await .uuidV4
  let listedName : String ← await .uuidV4
  modify fun lists => { lists with fileNameList := lists.fileNameList ++ [listedName] }
  tryCatch (storeMedia userId folder fileName thumbnailUint8List file) fun _ => pure ()

/-- Calls of Firebase Storage that store an object or fetch its URL. -/
@[simp] def Call.Stores : Call → Prop
  | .putData _ _ => True
  | .putFile _ _ => True
  | .getDownloadURL _ => True
  | _ => False

/-- Calls that read, decode or measure a file. -/
@[simp] def Call.Images : Call → Prop
  | .readAsBytesSync _ => True
  | .decodeImage _ => True
  | .copyResize _ _ => True
  | .encodeJpg _ => True
  | .thumbnailData _ _ _ => True
  | .getAspectRatio _ => True
  | _ => False

/-- The calls that make a thumbnail. -/
@[simp] def Call.MakesThumbnail (c : Call) : Prop := c.Images ∨ ∃ n, c = .setLoading n false

/-- The calls that measure, name and store a file. -/
@[simp] def Call.StoresFile (c : Call) : Prop := c.Images ∨ c.Stores ∨ c = .uuidV4

/-- The calls of a loop over files. -/
@[simp] def Call.Media (c : Call) : Prop :=
  c.Images ∨ c.Stores ∨ c = .uuidV4 ∨ ∃ n, c = .setLoading n false

/-- A decoder answered that the bytes are no picture. -/
@[simp] def Undecoded : (c : Call) → Ans c → Prop
  | .decodeImage _, image => image = none
  | _, _ => False

/-- An object was stored at this reference. -/
@[simp] def Puts (ref : Reference) : (c : Call) → Ans c → Prop
  | .putData ref' _, _ => ref' = ref
  | .putFile ref' _, _ => ref' = ref
  | _, _ => False

/-- The URL of an original was fetched. -/
@[simp] def FetchedOriginal : (c : Call) → Ans c → Prop
  | .getDownloadURL ref, _ => ref.folder ≠ thumbnails
  | _, _ => False

/-- The test for calls of Firebase Storage. -/
def Call.stores : Call → Bool
  | .putData _ _ => true
  | .putFile _ _ => true
  | .getDownloadURL _ => true
  | _ => false

/-- The test for an undecodable file. -/
def undecoded : (c : Call) → Ans c → Bool
  | .decodeImage _, image => image.isNone
  | _, _ => false

/-- The test for an object stored at this reference. -/
def puts (ref : Reference) : (c : Call) → Ans c → Bool
  | .putData ref' _, _ => ref' = ref
  | .putFile ref' _, _ => ref' = ref
  | _, _ => false

theorem Call.stores_iff (c : Call) : c.stores = true ↔ c.Stores := by
  cases c <;> simp [Call.stores]

theorem undecoded_iff (c : Call) (a : Ans c) : undecoded c a = true ↔ Undecoded c a := by
  cases c <;> simp [undecoded]

theorem puts_iff (ref : Reference) (c : Call) (a : Ans c) : puts ref c a = true ↔ Puts ref c a := by
  cases c <;> simp [puts]

instance : DecidablePred Call.Stores := fun c => decidable_of_iff _ c.stores_iff

instance (c : Call) (a : Ans c) : Decidable (Undecoded c a) :=
  decidable_of_iff _ (undecoded_iff c a)

instance (ref : Reference) (c : Call) (a : Ans c) : Decidable (Puts ref c a) :=
  decidable_of_iff _ (puts_iff ref c a)

theorem Call.Media.not_writes {c : Call} (h : c.Media) (path : CollectionPath) (id : String)
    (a : Ans c) : ¬ Writes path id c a := by
  cases c <;> simp at h ⊢

theorem Call.MakesThumbnail.media {c : Call} (h : c.MakesThumbnail) : c.Media :=
  h.imp_right fun hoff => .inr (.inr hoff)

theorem Call.StoresFile.media {c : Call} (h : c.StoresFile) : c.Media :=
  h.imp_right fun hstores => hstores.imp_right .inl

theorem Call.MakesThumbnail.not_puts {c : Call} (h : c.MakesThumbnail) (ref : Reference)
    (a : Ans c) : ¬ Puts ref c a := by
  cases c <;> simp at h ⊢

/-- Reading, storing and decoding files write no document. -/
theorem Call.Media.firestore {w w' : World} {c : Call} (h : c.Media) {a : Ans c}
    (hstep : w.perform c a = some w') : w'.firestore = w.firestore := by
  cases c with
  | setLoading | uuidV4 | readAsBytesSync | decodeImage | copyResize | encodeJpg | thumbnailData
  | getAspectRatio | putData | putFile | getDownloadURL =>
    simp only [World.perform] at hstep
    first
      | cases hstep; rfl
      | split at hstep <;> cases hstep; rfl
  | _ => simp at h

section Calls

variable {σ : Type}

theorem imageThumbnail_calls (n : Notifier) (file : File) :
    (imageThumbnail n file : Action σ (Option Uint8List)).Calls Call.MakesThumbnail := by
  unfold imageThumbnail
  refine calls_bind (calls_call (by simp)) fun bytes => calls_bind (calls_call (by simp)) ?_
  intro image
  cases image with
  | none => exact calls_bind (calls_call (by simp)) fun _ => calls_pure
  | some image =>
    exact calls_bind (calls_call (by simp)) fun _ =>
      calls_bind (calls_call (by simp)) fun _ => calls_pure

theorem videoThumbnail_calls (n : Notifier) (file : File) :
    (videoThumbnail n file : Action σ Uint8List).Calls Call.MakesThumbnail := by
  unfold videoThumbnail
  refine calls_bind (calls_call (by simp)) fun thumb => ?_
  cases thumb with
  | none => exact calls_bind (calls_call (by simp)) fun _ => calls_throw
  | some bytes => exact calls_pure

theorem storeMedia_calls (userId folder fileName : String) (thumbnail : Uint8List) (file : File) :
    (storeMedia userId folder fileName thumbnail file).Calls Call.StoresFile := by
  unfold storeMedia
  refine calls_bind (calls_call (by simp)) fun _ => calls_bind calls_modify fun _ => ?_
  refine calls_bind (calls_call (by simp)) fun _ => calls_bind calls_modify fun _ => ?_
  refine calls_bind (calls_call (by simp)) fun _ => calls_bind calls_modify fun _ => ?_
  exact calls_bind (calls_call (by simp)) fun _ => calls_modify

theorem storeListedMedia_calls (userId folder : String) (thumbnail : Uint8List) (file : File) :
    (storeListedMedia userId folder thumbnail file).Calls Call.StoresFile := by
  unfold storeListedMedia
  refine calls_bind (calls_call (by simp)) fun _ => calls_bind calls_modify fun _ => ?_
  refine calls_bind (calls_call (by simp)) fun _ => calls_bind (calls_call (by simp)) fun _ => ?_
  exact calls_bind calls_modify fun _ =>
    calls_tryCatch (storeMedia_calls _ _ _ _ _) fun _ => calls_pure

end Calls

/-- What making a picture's thumbnail can do: raise, report an undecodable file with the
flag off, or return a thumbnail of this file. -/
theorem imageThumbnail_spec {σ : Type} (n : Notifier) (file : File) (s : σ) (w : World) :
    (imageThumbnail n file : Action σ (Option Uint8List)).wp World.step
      (fun tr out s' w' => s' = s ∧ ¬ Raised Call.Stores tr ∧ ¬ Returned FetchedOriginal tr ∧
        ((∃ e, out = .error e ∧ Raised Call.Images tr ∧ w' = w) ∨
          out = .ok none ∧ Returned Undecoded tr ∧ ¬ Raised Call.Images tr ∧
            w' = w.setLoading n false ∨
          ∃ bytes : Uint8List, out = .ok (some bytes) ∧ bytes.source = file ∧
            ¬ Returned Undecoded tr ∧ ¬ Raised Call.Images tr ∧ w' = w)) s w := by
  unfold imageThumbnail
  rw [wp_bind, wp_readAsBytesSync]
  refine ⟨by simp, fun bytes hbytes => ?_⟩
  rw [ends_ok, wp_bind, wp_decodeImage]
  refine ⟨by simp, ?_, fun image himage => ?_⟩
  · rw [ends_ok, wp_bind, wp_setLoading]
    simp
  · rw [ends_ok, wp_bind, wp_copyResize]
    refine ⟨by simp, fun thumbnail hthumbnail _ => ?_⟩
    rw [ends_ok, wp_bind, wp_encodeJpg]
    simp [hthumbnail, himage, hbytes]

/-- What making a video's thumbnail can do. -/
theorem videoThumbnail_spec {σ : Type} (n : Notifier) (file : File) (s : σ) (w : World) :
    (videoThumbnail n file : Action σ Uint8List).wp World.step
      (fun tr out s' w' => s' = s ∧ ¬ Raised Call.Stores tr ∧ ¬ Returned FetchedOriginal tr ∧
        ¬ Returned Undecoded tr ∧
        ((∃ e, out = .error e ∧ Raised Call.Images tr ∧ w' = w) ∨
          (∃ e, out = .error e ∧ ¬ Raised Call.Images tr ∧
            w' = w.setLoading n false) ∨
          ∃ bytes : Uint8List, out = .ok bytes ∧ bytes.source = file ∧
            ¬ Raised Call.Images tr ∧ w' = w)) s w := by
  unfold videoThumbnail
  rw [wp_bind, wp_thumbnailData]
  refine ⟨by simp, ?_, fun bytes hbytes => ?_⟩
  · rw [ends_ok, wp_bind, wp_setLoading]
    simp
  · simp [hbytes]

/-- The second world differs from the first only in the objects of one name and in
further URLs handed out. -/
structure World.StoresUnder (w : World) (name : String) (w' : World) : Prop where
  firestore : w'.firestore = w.firestore
  uuids : w'.uuids = w.uuids
  urls : w.urls ⊆ w'.urls
  other : ∀ ref : Reference, ref.name ≠ name → w'.storage ref = w.storage ref

section StoresUnder

variable {w w' : World} {name : String}

theorem World.StoresUnder.refl : w.StoresUnder name w :=
  ⟨rfl, rfl, List.Subset.refl _, fun _ _ => rfl⟩

theorem World.StoresUnder.put (h : w.StoresUnder name w') (ref : Reference) (blob : Blob)
    (href : ref.name = name) : w.StoresUnder name (w'.put ref blob) := by
  refine ⟨h.firestore, h.uuids, h.urls, fun ref' href' => ?_⟩
  have hne : ref' ≠ ref := by
    rintro rfl
    exact href' href
  rw [World.put_storage, Function.update_of_ne hne]
  exact h.other ref' href'

theorem World.StoresUnder.handOut (h : w.StoresUnder name w') (url : String) (ref : Reference) :
    w.StoresUnder name (w'.handOut url ref) :=
  ⟨h.firestore, h.uuids, fun _ hu => List.mem_cons_of_mem _ (h.urls hu), h.other⟩

end StoresUnder

/-- What storing a file can do: everything is stored and listed, or a call of storage
fails and a prefix of the lists has grown by the ids and URLs obtained so far. -/
theorem storeMedia_spec {userId folder fileName : String} (hfolder : folder ≠ thumbnails)
    (thumbnail : Uint8List) (file : File) (l : MediaLists) (w : World) :
    (storeMedia userId folder fileName thumbnail file).wp World.step
      (fun tr out l' w' => ¬ Returned Undecoded tr ∧ w.StoresUnder fileName w' ∧
        ((∃ thumbUrl orgUrl, out = .ok () ∧ ¬ Raised Call.Stores tr ∧
            Returned FetchedOriginal tr ∧
            l' = { l with
              thumbnailStorageIdList := l.thumbnailStorageIdList ++ [fileName]
              originalStorageIdList := l.originalStorageIdList ++ [fileName]
              thumbnailUrlList := l.thumbnailUrlList ++ [thumbUrl]
              originalUrlList := l.originalUrlList ++ [orgUrl] } ∧
            w'.storage (thumbnailReference userId fileName) = some (.data thumbnail) ∧
            w'.storage ⟨userId, folder, fileName⟩ = some (.file file) ∧
            (thumbUrl, thumbnailReference userId fileName) ∈ w'.urls ∧
            (orgUrl, ⟨userId, folder, fileName⟩) ∈ w'.urls) ∨
          ∃ (e : Exc) (ids urls originals : List String), out = .error e ∧
            Raised Call.Stores tr ∧ ¬ Returned FetchedOriginal tr ∧
            l' = { l with
              thumbnailStorageIdList := l.thumbnailStorageIdList ++ ids
              originalStorageIdList := l.originalStorageIdList ++ originals
              thumbnailUrlList := l.thumbnailUrlList ++ urls } ∧
            originals.length ≤ urls.length ∧ urls.length ≤ ids.length ∧ ids.length ≤ 1 ∧
            (∀ id ∈ ids, id = fileName ∧
              (w'.storage (thumbnailReference userId fileName)).isSome) ∧
            ∀ id ∈ originals, id = fileName ∧
              (w'.storage ⟨userId, folder, fileName⟩).isSome)) l w := by
  have hput : w.StoresUnder fileName (w.put (thumbnailReference userId fileName)
      (.data thumbnail)) := World.StoresUnder.refl.put _ _ rfl
  unfold storeMedia
  rw [wp_bind, wp_putData]
  refine ⟨?_, ?_⟩
  · rw [ends_error]
    exact ⟨by simp, .refl, .inr ⟨.unavailable, [], [], [], by simp⟩⟩
  rw [ends_ok, wp_bind, wp_modify, ends_ok, wp_bind, wp_getDownloadURL]
  refine ⟨?_, fun hnone => by simp at hnone, fun _ thumbUrl => ?_⟩
  · rw [ends_error]
    exact ⟨by simp, hput, .inr ⟨.unavailable, [fileName], [], [], by simp [thumbnailReference]⟩⟩
  have hurl := hput.handOut thumbUrl (thumbnailReference userId fileName)
  rw [ends_ok, wp_bind, wp_modify, ends_ok, wp_bind, wp_putFile]
  refine ⟨?_, ?_⟩
  · rw [ends_error]
    exact ⟨by simp, hurl,
      .inr ⟨.unavailable, [fileName], [thumbUrl], [], by simp [thumbnailReference]⟩⟩
  have hfile := hurl.put ⟨userId, folder, fileName⟩ (.file file) rfl
  rw [ends_ok, wp_bind, wp_modify, ends_ok, wp_bind, wp_getDownloadURL]
  refine ⟨?_, fun hnone => by simp at hnone, fun _ orgUrl => ?_⟩
  · rw [ends_error]
    exact ⟨by simp, hfile, .inr ⟨.unavailable, [fileName], [thumbUrl], [fileName],
      by simp [thumbnailReference, hfolder.symm]⟩⟩
  rw [ends_ok, wp_modify]
  exact ⟨by simp, hfile.handOut orgUrl _, .inl ⟨thumbUrl, orgUrl,
    by simp [thumbnailReference, hfolder, hfolder.symm]⟩⟩

/-- The lists have grown by the objects that a trace stored. -/
def ListsPuts (userId folder : String) (tr : List AppEvent) (l l' : MediaLists) : Prop :=
  ∀ ref, ref ∈ l'.media userId folder ↔
    ref ∈ l.media userId folder ∨ Returned (Puts ref) tr

/-- A post that a trace has written lists exactly the objects that the trace has stored. -/
def WritesWhatItPuts (tr : List AppEvent) (w' : World) : Prop :=
  ∀ id, Returned (Writes .posts id) tr → ∃ d : Doc, (w'.firestore .posts)[id]? = some d ∧
    ∀ ref, ref ∈ d.media ↔ Returned (Puts ref) tr

section WritesWhatItPuts

variable {tr : List AppEvent} {w' : World}

theorem WritesWhatItPuts.of_none (h : ∀ id, ¬ Returned (Writes .posts id) tr) :
    WritesWhatItPuts tr w' := fun id hid => absurd hid (h id)

/-- Calls before the others that neither write a post nor store an object. -/
theorem WritesWhatItPuts.prepend (h : WritesWhatItPuts tr w') (pre : List AppEvent)
    (hwrites : ∀ id, ¬ Returned (Writes .posts id) pre)
    (hputs : ∀ ref, ¬ Returned (Puts ref) pre) : WritesWhatItPuts (pre ++ tr) w' := by
  intro id hid
  obtain ⟨d, hd, hlisted⟩ := h id ((returned_append.mp hid).resolve_left (hwrites id))
  refine ⟨d, hd, fun ref => ?_⟩
  rw [hlisted ref, returned_append, or_iff_right (hputs ref)]

/-- Turning a flag off at the end. -/
theorem WritesWhatItPuts.setLoading (h : WritesWhatItPuts tr w') (n : Notifier) (v : Bool) :
    WritesWhatItPuts (tr ++ [⟨.setLoading n v, .ok ()⟩]) (w'.setLoading n v) := by
  intro id hid
  obtain ⟨d, hd, hlisted⟩ := h id (by simpa using hid)
  refine ⟨d, ?_, fun ref => ?_⟩
  · rw [World.setLoading_firestore]
    exact hd
  · rw [hlisted ref]
    simp

/-- A document written as the last call, after lists have grown by what was stored. -/
theorem WritesWhatItPuts.of_lists {w : World} {userId folder : String} {lists : MediaLists}
    {postId : PostId} {d : Doc} (hwrites : ∀ id, Returned (Writes .posts id) tr → id = postId)
    (hmedia : d.media = lists.media userId folder)
    (hputs : ∀ ref, ref ∈ lists.media userId folder ↔ Returned (Puts ref) tr) :
    WritesWhatItPuts tr (w.setDoc .posts postId d) := by
  intro id hid
  obtain rfl := hwrites id hid
  refine ⟨d, ?_, fun ref => ?_⟩
  · rw [World.setDoc_firestore, Function.update_self, Collection.getElem?_insert_self]
  · rw [hmedia, hputs ref]

end WritesWhatItPuts

/-- Making a thumbnail stores nothing and keeps the lists. -/
theorem imageThumbnail_puts {σ : Type} (n : Notifier) (file : File) (s : σ) (w : World) :
    (imageThumbnail n file : Action σ (Option Uint8List)).wp World.step
      (fun tr _ s' _ => s' = s ∧ ∀ ref, ¬ Returned (Puts ref) tr) s w := by
  refine wp_mono (wp_and (imageThumbnail_spec n file s w)
    (wp_calls (imageThumbnail_calls n file) s w)) ?_
  rintro tr out s' w' ⟨⟨hs, -⟩, hcalls⟩
  exact ⟨hs, fun ref => not_returned_of_calls hcalls fun c a hc => hc.not_puts ref a⟩

theorem videoThumbnail_puts {σ : Type} (n : Notifier) (file : File) (s : σ) (w : World) :
    (videoThumbnail n file : Action σ Uint8List).wp World.step
      (fun tr _ s' _ => s' = s ∧ ∀ ref, ¬ Returned (Puts ref) tr) s w := by
  refine wp_mono (wp_and (videoThumbnail_spec n file s w)
    (wp_calls (videoThumbnail_calls n file) s w)) ?_
  rintro tr out s' w' ⟨⟨hs, -⟩, hcalls⟩
  exact ⟨hs, fun ref => not_returned_of_calls hcalls fun c a hc => hc.not_puts ref a⟩

/-- Wherever it stops, storing a file has listed exactly the objects that it has stored. -/
theorem storeMedia_puts (userId folder fileName : String) (thumbnail : Uint8List) (file : File)
    (l : MediaLists) (w : World) :
    (storeMedia userId folder fileName thumbnail file).wp World.step
      (fun tr _ l' _ => ListsPuts userId folder tr l l') l w := by
  unfold storeMedia
  rw [wp_bind, wp_putData]
  refine ⟨fun ref => by simp, ?_⟩
  rw [ends_ok, wp_bind, wp_modify, ends_ok, wp_bind, wp_getDownloadURL]
  refine ⟨fun ref => ?_, fun _ ref => ?_, fun _ thumbUrl => ?_⟩
  · simp [MediaLists.mem_media, or_and_right, exists_or, or_assoc, or_comm]
  · simp [MediaLists.mem_media, or_and_right, exists_or, or_assoc, or_comm]
  rw [ends_ok, wp_bind, wp_modify, ends_ok, wp_bind, wp_putFile]
  refine ⟨fun ref => ?_, ?_⟩
  · simp [MediaLists.mem_media, or_and_right, exists_or, or_assoc, or_comm]
  rw [ends_ok, wp_bind, wp_modify, ends_ok, wp_bind, wp_getDownloadURL]
  refine ⟨fun ref => ?_, fun _ ref => ?_, fun _ orgUrl => ?_⟩
  · simp [MediaLists.mem_media, or_and_right, exists_or, or_assoc, or_comm, or_left_comm]
  · simp [MediaLists.mem_media, or_and_right, exists_or, or_assoc, or_comm, or_left_comm]
  rw [ends_ok, wp_modify]
  intro ref
  simp [MediaLists.mem_media, or_and_right, exists_or, or_assoc, or_comm, or_left_comm]

end TekkGram
