import TekkGram.Notifiers.Album

/-!
# ImageUploadNotifier

A single upload checks its file before it stores anything. The upload of several
files runs one callback per file and adds the post whatever the callbacks did.
-/

namespace TekkGram

open Interaction Async

namespace ImageUploadNotifier

/-- The thumbnail of a single upload; none after an undecodable picture. -/
def thumbnailOf (fileType : FileType) (file : File) : Action Unit (Option Uint8List) :=
  match fileType with
  | .image => imageThumbnail .imageUpload file
  | .video => videoThumbnail .imageUpload file >>= fun thumb => pure (some thumb)
  | .userImage => imageThumbnail .imageUpload file

/-- The fields that a profile picture writes to the user's document. -/
def profileFields (userData : Option UserInfoModel) (imageUrl : String) : Doc :=
  [(FirebaseFieldName.displayName, (userData.map fun u => .string u.displayName).getD .null),
   (FirebaseFieldName.email, .string ((userData.bind (·.email)).getD "")),
   (FirebaseFieldName.phone, .string ((userData.bind (·.phone)).getD "")),
   (FirebaseFieldName.imageUrl, .string imageUrl)]

/-- The `try` block of a single upload. -/
def storeAndPost (file : File) (fileType : FileType) (message : Option String)
    (postSettings : Option (List (PostSettings × Bool))) (userId : UserId)
    (userData : Option UserInfoModel) (thumbnailUint8List : Uint8List)
    (thumbnailAspectRatio : ℚ) (fileName : String) : Action Unit Bool := do
  let thumbnailRef := thumbnailReference userId fileName
  let originalFileRef : Reference := ⟨userId, fileType.collectionName, fileName⟩
  let thumbnailUploadTask : TaskSnapshot ← await (.putData thumbnailRef thumbnailUint8List)
  let originalFileUploadTask : TaskSnapshot ← await (.putFile originalFileRef file)
  if fileType = .userImage then
    let docs : List DocSnapshot ← await (.get {
      collection := .users
      filters := [(FirebaseFieldName.userId, .string userId)]
      limit := some 1 })
    let userInfo ← first docs
    let imageUrl : String ← await (.getDownloadURL originalFileRef)
    await (.update .users userInfo.id (profileFields userData imageUrl))
    return true
  else
    let thumbnailUrl : String ← await (.getDownloadURL thumbnailRef)
    let fileUrl : String ← await (.getDownloadURL originalFileRef)
    let postSettings ← nullCheck postSettings
    let _ ← await (.add .posts (postPayload userId (message.getD "") [thumbnailUrl] [fileUrl]
      fileType [fileName] [thumbnailAspectRatio] postSettings [thumbnailUploadTask.ref.name]
      [originalFileUploadTask.ref.name] (some .serverTimestamp)))
    return true

/-- `upload`. -/
def upload (file : File) (fileType : FileType) (message : Option String)
    (postSettings : Option (List (PostSettings × Bool))) (userId : UserId)
    (userData : Option UserInfoModel) : Action Unit Bool := do
  await (.setLoading .imageUpload true)
  let thumbnail ← thumbnailOf fileType file
  match thumbnail with
  | none => return false
  | some thumbnailUint8List => do
    let thumbnailAspectRatio : ℚ ← await (.getAspectRatio thumbnailUint8List)
    let fileName : String ← await .uuidV4
    tryFinally
      (tryCatch
        (storeAndPost file fileType message postSettings userId userData thumbnailUint8List
          thumbnailAspectRatio fileName)
        fun _ => pure false)
      (await (.setLoading .imageUpload false))

/-- The callback for one file. It decodes the file once before the switch and once more
inside it, and the thumbnail stays unassigned for the other file types. -/
def uploadImageFile (userId : UserId) (fileType : FileType) (imageFile : File) :
    Action MediaLists Unit := do
  let bytes : Uint8List ← await (.readAsBytesSync imageFile)
  let fileAsImage : Option Image ← await (.decodeImage bytes)
  match fileAsImage with
  | none => await (.setLoading .imageUpload false)
  | some _ =>
    match fileType with
    | .image => do
      let thumbnail ← imageThumbnail .imageUpload imageFile
      match thumbnail with
      | none => return ()
      | some thumbnailUint8List =>
        storeListedMedia userId fileType.collectionName thumbnailUint8List imageFile
    | .video => throw .lateInitialization
    | .userImage => throw .lateInitialization

/-- The payload of the post for the gathered lists. -/
def multiplePayload (userId : UserId) (message : Option String) (fileType : FileType)
    (postSettings : List (PostSettings × Bool)) (lists : MediaLists) : Doc :=
  postPayload userId (message.getD "") lists.thumbnailUrlList lists.originalUrlList fileType
    lists.fileNameList lists.thumbnailAspectRatioList postSettings lists.thumbnailStorageIdList
    lists.originalStorageIdList (some .serverTimestamp)

/-- The `try` block of the upload of several files. -/
def uploadAndPost (files : List File) (message : Option String)
    (postSettings : Option (List (PostSettings × Bool))) (fileType : FileType)
    (userId : UserId) : Action MediaLists Bool := do
  forEach files (uploadImageFile userId fileType)
  let lists ← get
  let postSettings ← nullCheck postSettings
  let _ ← await (.add .posts (multiplePayload userId message fileType postSettings lists))
  return true

/-- `uploadMultipleImageFiles`. -/
def uploadMultipleImageFiles (files : List File) (message : Option String)
    (postSettings : Option (List (PostSettings × Bool))) (fileType : FileType)
    (userId : UserId) : Action Unit Bool :=
  withLocals MediaLists.empty do
    await (.setLoading .imageUpload true)
    tryFinally
      (tryCatch (uploadAndPost files message postSettings fileType userId) fun _ => pure false)
      (await (.setLoading .imageUpload false))

/-- The lists of a post with one file. -/
def singleLists (fileName : String) (ratio : ℚ) (thumbnailUrl fileUrl : String) : MediaLists :=
  ⟨[fileName], [fileName], [fileName], [ratio], [thumbnailUrl], [fileUrl]⟩

/-- A committed post lists the gathered media. -/
theorem multiplePayload_media (t : Timestamp) (userId : UserId) (message : Option String)
    (fileType : FileType) (settings : List (PostSettings × Bool)) (lists : MediaLists) :
    Doc.media ((multiplePayload userId message fileType settings lists).resolve t) =
      lists.media userId fileType.collectionName := Doc.media_of_fields rfl rfl rfl rfl

/-- What the `try` block of a picture's or video's upload can do: raise after storing at most
its own objects, or add the post with both objects stored. -/
theorem storeAndPost_spec (file : File) {fileType : FileType} (hfileType : fileType ≠ .userImage)
    (message : Option String) (postSettings : Option (List (PostSettings × Bool)))
    (userId : UserId) (userData : Option UserInfoModel) (thumbnail : Uint8List) (ratio : ℚ)
    (fileName : String) (s : Unit) (w : World) :
    (storeAndPost file fileType message postSettings userId userData thumbnail ratio fileName).wp
      World.step (fun _ out _ w' =>
        (∃ e, out = .error e ∧ w.StoresUnder fileName w') ∨
        ∃ thumbUrl orgUrl settings id t w₁, out = .ok true ∧ w.StoresUnder fileName w₁ ∧
          (w₁.storage (thumbnailReference userId fileName)).isSome ∧
          (w₁.storage ⟨userId, fileType.collectionName, fileName⟩).isSome ∧
          id ∉ w₁.firestore .posts ∧
          w' = w₁.setDoc .posts id ((multiplePayload userId message fileType settings
            (singleLists fileName ratio thumbUrl orgUrl)).resolve t)) s w := by
  have hfolder := fileType.collectionName_ne_thumbnails
  have hput : w.StoresUnder fileName (w.put (thumbnailReference userId fileName)
      (.data thumbnail)) := World.StoresUnder.refl.put _ _ rfl
  have hfile := hput.put ⟨userId, fileType.collectionName, fileName⟩ (.file file) rfl
  unfold storeAndPost
  rw [wp_bind, wp_putData]
  refine ⟨.inl ⟨_, rfl, .refl⟩, ?_⟩
  rw [ends_ok, wp_bind, wp_putFile]
  refine ⟨.inl ⟨_, rfl, hput⟩, ?_⟩
  rw [ends_ok, if_neg hfileType, wp_bind, wp_getDownloadURL]
  refine ⟨.inl ⟨_, rfl, hfile⟩, fun _ => .inl ⟨_, rfl, hfile⟩, fun hthumbnail thumbUrl => ?_⟩
  have hthumbUrl := hfile.handOut thumbUrl (thumbnailReference userId fileName)
  rw [ends_ok, wp_bind, wp_getDownloadURL]
  refine ⟨.inl ⟨_, rfl, hthumbUrl⟩, fun _ => .inl ⟨_, rfl, hthumbUrl⟩, fun horiginal orgUrl => ?_⟩
  have horgUrl := hthumbUrl.handOut orgUrl ⟨userId, fileType.collectionName, fileName⟩
  rw [ends_ok, wp_bind, wp_nullCheck]
  refine ⟨fun _ => .inl ⟨_, rfl, horgUrl⟩, fun settings _ => ?_⟩
  rw [ends_ok, wp_bind, wp_add]
  refine ⟨.inl ⟨_, rfl, horgUrl⟩, fun id t hid => ?_⟩
  rw [ends_ok, wp_pure]
  exact .inr ⟨thumbUrl, orgUrl, settings, id, t, _, rfl, horgUrl, hthumbnail, horiginal, hid, rfl⟩

/-- What making the thumbnail of a single upload can do. Only a failing image call leaves the
flag as it was without a thumbnail to go on with. -/
theorem thumbnailOf_spec (fileType : FileType) (file : File) (s : Unit) (w : World) :
    (thumbnailOf fileType file).wp World.step (fun tr out _ w' =>
      (∃ e, out = .error e ∧ Raised Call.Images tr ∧ w' = w) ∨
      (((∃ e, out = .error e) ∨ out = .ok none) ∧ ¬ Raised Call.Images tr ∧
        w' = w.setLoading .imageUpload false) ∨
      ∃ bytes, out = .ok (some bytes) ∧ ¬ Raised Call.Images tr ∧ w' = w) s w := by
  have hpicture : (imageThumbnail .imageUpload file : Action Unit _).wp World.step
      (fun tr out _ w' =>
        (∃ e, out = .error e ∧ Raised Call.Images tr ∧ w' = w) ∨
        (((∃ e, out = .error e) ∨ out = .ok none) ∧ ¬ Raised Call.Images tr ∧
          w' = w.setLoading .imageUpload false) ∨
        ∃ bytes, out = .ok (some bytes) ∧ ¬ Raised Call.Images tr ∧ w' = w) s w := by
    refine wp_mono (imageThumbnail_spec .imageUpload file s w) ?_
    rintro tr out s' w' ⟨-, -, -, ⟨e, rfl, hraised, rfl⟩ | ⟨rfl, -, hraised, rfl⟩ |
      ⟨bytes, rfl, -, -, hraised, rfl⟩⟩
    · exact .inl ⟨e, rfl, hraised, rfl⟩
    · exact .inr (.inl ⟨.inr rfl, hraised, rfl⟩)
    · exact .inr (.inr ⟨bytes, rfl, hraised, rfl⟩)
  cases fileType with
  | image => exact hpicture
  | userImage => exact hpicture
  | video =>
    refine wp_bind.mpr (wp_mono (videoThumbnail_spec .imageUpload file s w) ?_)
    rintro tr out s' w' ⟨-, -, -, -, ⟨e, rfl, hraised, rfl⟩ | ⟨e, rfl, hraised, rfl⟩ |
      ⟨bytes, rfl, -, hraised, rfl⟩⟩
    · exact .inl ⟨e, rfl, hraised, rfl⟩
    · exact .inr (.inl ⟨.inl ⟨e, rfl⟩, hraised, rfl⟩)
    · rw [ends_ok, wp_pure, List.append_nil]
      exact .inr (.inr ⟨bytes, rfl, hraised, rfl⟩)

/-- What the upload of a picture or a video can do: end without a document, or add a post whose
two objects are stored. -/
theorem upload_spec (file : File) {fileType : FileType} (hfileType : fileType ≠ .userImage)
    (message : Option String) (postSettings : Option (List (PostSettings × Bool)))
    (userId : UserId) (userData : Option UserInfoModel) (s : Unit) (w : World) :
    (upload file fileType message postSettings userId userData).wp World.step
      (fun _ out _ w' => w.Grows w' ∨
        ∃ fileName ratio thumbUrl orgUrl settings id t w₁, out = .ok true ∧ w.Grows w₁ ∧
          FreshObject w w₁ (thumbnailReference userId fileName) ∧
          FreshObject w w₁ ⟨userId, fileType.collectionName, fileName⟩ ∧
          id ∉ w₁.firestore .posts ∧
          w' = (w₁.setDoc .posts id ((multiplePayload userId message fileType settings
            (singleLists fileName ratio thumbUrl orgUrl)).resolve t)).setLoading
              .imageUpload false) s w := by
  have hstart : w.Grows (w.setLoading .imageUpload true) := .setLoading .refl _ _
  unfold upload
  rw [wp_bind, wp_setLoading, ends_ok]
  refine wp_bind.mpr (wp_mono (thumbnailOf_spec fileType file s _) ?_)
  rintro tr out s' w' (⟨e, rfl, -, rfl⟩ | ⟨⟨e, rfl⟩ | rfl, -, rfl⟩ | ⟨thumbnail, rfl, -, rfl⟩)
  · exact .inl hstart
  · exact .inl (hstart.setLoading _ _)
  · rw [ends_ok, wp_pure]
    exact .inl (hstart.setLoading _ _)
  rw [ends_ok, wp_bind, wp_getAspectRatio]
  refine ⟨.inl hstart, ?_⟩
  rw [ends_ok, wp_bind, wp_uuidV4]
  intro fileName hfresh
  rw [ends_ok, wp_tryFinally_tryCatch]
  have hdraw := hstart.draw fileName
  refine wp_mono (storeAndPost_spec file hfileType message postSettings userId userData thumbnail
    thumbnail.aspectRatio fileName s' _) ?_
  rintro tr' out s'' w' (⟨e, rfl, hunder⟩ |
    ⟨thumbUrl, orgUrl, settings, id, t, w₁, rfl, hunder, hthumbnail, horiginal, hid, rfl⟩)
  · rw [ends_error]
    exact .inl ((hdraw.storesUnder hunder hfresh).setLoading _ _)
  · have hname : fileName ∈ w₁.uuids := by
      rw [hunder.uuids]
      exact List.mem_cons_self ..
    rw [ends_ok]
    exact .inr ⟨fileName, thumbnail.aspectRatio, thumbUrl, orgUrl, settings, id, t, w₁, rfl,
      hdraw.storesUnder hunder hfresh, ⟨hfresh, hname, hthumbnail⟩, ⟨hfresh, hname, horiginal⟩,
      hid, rfl⟩

/-- What the callback can do: raise before it stores anything, or process its file. -/
theorem uploadImageFile_spec (userId : UserId) (fileType : FileType) (imageFile : File)
    (l : MediaLists) (w : World) :
    (uploadImageFile userId fileType imageFile).wp World.step
      (fun tr out l' w' => w.Grows w' ∧
        Ends (fun _ => Processed w w' userId fileType.collectionName imageFile tr l l')
          (fun _ => True) out) l w := by
  unfold uploadImageFile
  rw [wp_bind, wp_readAsBytesSync]
  refine ⟨⟨.refl, trivial⟩, fun bytes _ => ?_⟩
  rw [ends_ok, wp_bind, wp_decodeImage]
  refine ⟨⟨.refl, trivial⟩, ?_, fun image _ => ?_⟩
  · rw [ends_ok, wp_setLoading]
    exact ⟨.setLoading .refl _ _, .skipped (by simp) (by simp) (by simp)⟩
  rw [ends_ok]
  cases fileType with
  | video => simp [World.Grows.refl]
  | userImage => simp [World.Grows.refl]
  | image =>
    refine wp_bind.mpr (wp_mono (imageThumbnail_spec .imageUpload imageFile l w) ?_)
    rintro tr out l' w' ⟨rfl, hraised, hfetched, ⟨e, rfl, -, rfl⟩ | ⟨rfl, hundecoded, -, rfl⟩ |
      ⟨thumbnail, rfl, hsource, hdecoded, -, rfl⟩⟩
    · exact ⟨.refl, trivial⟩
    · rw [ends_ok, wp_pure]
      exact ⟨.setLoading .refl _ _,
        .skipped (by simp [hundecoded]) (by simp [hraised]) (by simp [hfetched])⟩
    · have hquiet : Quiet ([⟨.readAsBytesSync imageFile, .ok bytes⟩] ++
          ([⟨.decodeImage bytes, .ok (some image)⟩] ++ tr)) := by
        simp [Quiet, hraised, hfetched, hdecoded]
      refine wp_mono (storeListedMedia_spec (FileType.collectionName_ne_thumbnails .image)
        hsource l' w') ?_
      rintro tr' out l'' w'' ⟨hgrows, hout⟩
      cases out with
      | error e => exact ⟨hgrows, trivial⟩
      | ok _ =>
        have hprocessed := Processed.prepend hout _ hquiet
        simp only [List.append_assoc] at hprocessed
        exact ⟨hgrows, hprocessed⟩

theorem uploadImageFile_calls (userId : UserId) (fileType : FileType) (imageFile : File) :
    (uploadImageFile userId fileType imageFile).Calls Call.Media := by
  unfold uploadImageFile
  refine calls_bind (calls_call (by simp)) fun bytes => calls_bind (calls_call (by simp)) ?_
  intro image
  cases image with
  | none => exact calls_call (by simp)
  | some image =>
    cases fileType with
    | video => exact calls_throw
    | userImage => exact calls_throw
    | image =>
      refine calls_bind ((imageThumbnail_calls _ _).mono fun _ => Call.MakesThumbnail.media) ?_
      intro thumbnail
      cases thumbnail with
      | none => exact calls_pure
      | some bytes => exact (storeListedMedia_calls _ _ _ _).mono fun _ => Call.StoresFile.media

/-- What the `try` block can do: raise without writing a document, or add the post for the
gathered lists. -/
theorem uploadAndPost_spec (files : List File) (message : Option String)
    (postSettings : Option (List (PostSettings × Bool))) (fileType : FileType) (userId : UserId)
    (w : World) :
    (uploadAndPost files message postSettings fileType userId).wp World.step
      (fun tr out _ w' =>
        (∃ e, out = .error e ∧ w.Grows w' ∧ ∀ path id, ¬ Returned (Writes path id) tr) ∨
        ∃ lists settings id t w₁, out = .ok true ∧ postSettings = some settings ∧
          Gathered w w₁ userId fileType.collectionName files tr lists ∧
          id ∉ w₁.firestore .posts ∧
          w' = w₁.setDoc .posts id
            ((multiplePayload userId message fileType settings lists).resolve t) ∧
          ∀ path id', Returned (Writes path id') tr ↔ path = .posts ∧ id' = id) .empty w := by
  unfold uploadAndPost
  have hloop := forEach_gathered (uploadImageFile_spec userId fileType)
    (uploadImageFile_calls userId fileType) files w
  refine wp_bind.mpr (wp_mono hloop ?_)
  rintro tr out lists w₁ ⟨hgrows, hwrites, hout⟩
  cases out with
  | error e => exact .inl ⟨e, rfl, hgrows, hwrites⟩
  | ok _ =>
    rw [ends_ok, wp_bind, wp_get, ends_ok, wp_bind, wp_nullCheck]
    constructor
    · intro _
      rw [ends_error]
      exact .inl ⟨.nullCheck, rfl, hgrows, by simpa using hwrites⟩
    · intro settings hsettings
      rw [ends_ok, wp_bind, wp_add]
      constructor
      · rw [ends_error]
        exact .inl ⟨.unavailable, rfl, hgrows, by simpa using hwrites⟩
      · intro id t hid
        rw [ends_ok, wp_pure]
        refine .inr ⟨lists, settings, id, t, w₁, rfl, hsettings, ?_, hid, rfl, ?_⟩
        · exact Gathered.around hout [] _ (by simp [Quiet]) (by simp [Quiet])
        · intro path id'
          simp [hwrites, eq_comm]

/-- What the upload of several files can do: return `false` and write no document, or return
`true` and have added the post for the gathered lists. -/
theorem uploadMultipleImageFiles_spec (files : List File) (message : Option String)
    (postSettings : Option (List (PostSettings × Bool))) (fileType : FileType) (userId : UserId)
    (s : Unit) (w : World) :
    (uploadMultipleImageFiles files message postSettings fileType userId).wp World.step
      (fun tr out _ w' =>
        (out = .ok false ∧ w.Grows w' ∧ ∀ path id, ¬ Returned (Writes path id) tr) ∨
        ∃ lists settings id t w₁, out = .ok true ∧ postSettings = some settings ∧
          Gathered w w₁ userId fileType.collectionName files tr lists ∧
          id ∉ w₁.firestore .posts ∧
          w' = (w₁.setDoc .posts id
            ((multiplePayload userId message fileType settings lists).resolve t)).setLoading
              .imageUpload false ∧
          ∀ path id', Returned (Writes path id') tr ↔ path = .posts ∧ id' = id) s w := by
  unfold uploadMultipleImageFiles
  rw [wp_withLocals, wp_bind, wp_setLoading, ends_ok, wp_tryFinally_tryCatch]
  have hstart : w.Grows (w.setLoading .imageUpload true) := .setLoading .refl _ _
  refine wp_mono (uploadAndPost_spec files message postSettings fileType userId _) ?_
  rintro tr out l w' (⟨e, rfl, hgrows, hwrites⟩ |
    ⟨lists, settings, id, t, w₁, rfl, hsettings, hgathered, hid, rfl, hwrites⟩)
  · rw [ends_error]
    exact .inl ⟨rfl, .setLoading (hstart.trans hgrows) _ _, by simpa using hwrites⟩
  · rw [ends_ok]
    refine .inr ⟨lists, settings, id, t, w₁, rfl, hsettings, ?_, hid, rfl, by simpa using hwrites⟩
    exact (hgathered.of_grows hstart).around _ _ (by simp [Quiet]) (by simp [Quiet])

/-- The callback lists what it stores. -/
theorem uploadImageFile_puts (userId : UserId) (fileType : FileType) (imageFile : File)
    (l : MediaLists) (w : World) :
    (uploadImageFile userId fileType imageFile).wp World.step
      (fun tr _ l' _ => ListsPuts userId fileType.collectionName tr l l') l w := by
  unfold uploadImageFile
  rw [wp_bind, wp_readAsBytesSync]
  refine ⟨fun ref => by simp, fun bytes _ => ?_⟩
  rw [ends_ok, wp_bind, wp_decodeImage]
  refine ⟨fun ref => by simp, ?_, fun image _ => ?_⟩
  · rw [ends_ok, wp_setLoading]
    exact fun ref => by simp
  rw [ends_ok]
  cases fileType with
  | video => exact wp_throw.mpr fun ref => by simp
  | userImage => exact wp_throw.mpr fun ref => by simp
  | image =>
    refine wp_bind.mpr (wp_mono (imageThumbnail_puts .imageUpload imageFile l w) ?_)
    rintro tr out l' w' ⟨rfl, hputs⟩
    rcases out with e | thumbnail | thumbnail
    · exact fun ref => by simp [hputs]
    · rw [ends_ok, wp_pure]
      exact fun ref => by simp [hputs]
    · refine wp_mono (storeListedMedia_puts userId _ thumbnail imageFile l' w') ?_
      intro tr' out l'' w'' hstored ref
      rw [hstored ref]
      simp [hputs]

/-- The post that the `try` block adds lists exactly what the loop stored. -/
theorem uploadAndPost_puts (files : List File) (message : Option String)
    (postSettings : Option (List (PostSettings × Bool))) (fileType : FileType) (userId : UserId)
    (w : World) :
    (uploadAndPost files message postSettings fileType userId).wp World.step
      (fun tr _ _ w' => WritesWhatItPuts tr w') .empty w := by
  have hloop := forEach_puts (uploadImageFile_puts userId fileType) files
  have hcalls : (forEach files (uploadImageFile userId fileType)).Calls Call.Media :=
    calls_forEach fun file _ => uploadImageFile_calls userId fileType file
  unfold uploadAndPost
  refine wp_bind.mpr (wp_mono (wp_and (hloop _) (wp_calls hcalls _ _)) ?_)
  rintro tr out lists w₁ ⟨hputs, hmedia⟩
  have hnone : ∀ id, ¬ Returned (Writes .posts id) tr := fun id =>
    not_returned_of_calls hmedia fun c a hc => hc.not_writes .posts id a
  cases out with
  | error e =>
    rw [ends_error]
    exact .of_none hnone
  | ok _ =>
    rw [ends_ok, wp_bind, wp_get, ends_ok, wp_bind, wp_nullCheck]
    refine ⟨fun _ => .of_none (by simpa using hnone), fun settings _ => ?_⟩
    rw [ends_ok, wp_bind, wp_add]
    refine ⟨.of_none (by simpa using hnone), fun id t _ => ?_⟩
    rw [ends_ok, wp_pure]
    refine .of_lists (by simp [hnone, eq_comm]) (multiplePayload_media ..) fun ref => ?_
    rw [hputs ref]
    simp

/-- The post that the upload of several files adds lists exactly what the upload stored. -/
theorem uploadMultipleImageFiles_puts (files : List File) (message : Option String)
    (postSettings : Option (List (PostSettings × Bool))) (fileType : FileType) (userId : UserId)
    (s : Unit) (w : World) :
    (uploadMultipleImageFiles files message postSettings fileType userId).wp World.step
      (fun tr _ _ w' => WritesWhatItPuts tr w') s w := by
  unfold uploadMultipleImageFiles
  rw [wp_withLocals, wp_bind, wp_setLoading, ends_ok, wp_tryFinally_tryCatch]
  refine wp_mono (uploadAndPost_puts files message postSettings fileType userId _) ?_
  intro tr out l w' hadds
  have hend := (hadds.setLoading .imageUpload false).prepend
    [⟨.setLoading .imageUpload true, .ok ()⟩] (by simp) (by simp)
  cases out with
  | ok b => exact hend
  | error e => exact hend

theorem thumbnailOf_calls (fileType : FileType) (file : File) :
    (thumbnailOf fileType file).Calls Call.MakesThumbnail := by
  cases fileType with
  | image => exact imageThumbnail_calls _ _
  | userImage => exact imageThumbnail_calls _ _
  | video => exact calls_bind (videoThumbnail_calls _ _) fun _ => calls_pure

/-- The post that the `try` block of a single upload adds lists the two objects that it stored. -/
theorem storeAndPost_puts (file : File) {fileType : FileType} (hfileType : fileType ≠ .userImage)
    (message : Option String) (postSettings : Option (List (PostSettings × Bool)))
    (userId : UserId) (userData : Option UserInfoModel) (thumbnail : Uint8List) (ratio : ℚ)
    (fileName : String) (s : Unit) (w : World) :
    (storeAndPost file fileType message postSettings userId userData thumbnail ratio fileName).wp
      World.step (fun tr _ _ w' => WritesWhatItPuts tr w') s w := by
  unfold storeAndPost
  rw [wp_bind, wp_putData]
  refine ⟨.of_none (by simp), ?_⟩
  rw [ends_ok, wp_bind, wp_putFile]
  refine ⟨.of_none (by simp), ?_⟩
  rw [ends_ok, if_neg hfileType, wp_bind, wp_getDownloadURL]
  refine ⟨.of_none (by simp), fun _ => .of_none (by simp), fun _ thumbUrl => ?_⟩
  rw [ends_ok, wp_bind, wp_getDownloadURL]
  refine ⟨.of_none (by simp), fun _ => .of_none (by simp), fun _ orgUrl => ?_⟩
  rw [ends_ok, wp_bind, wp_nullCheck]
  refine ⟨fun _ => .of_none (by simp), fun settings _ => ?_⟩
  rw [ends_ok, wp_bind, wp_add]
  refine ⟨.of_none (by simp), fun id t _ => ?_⟩
  rw [ends_ok, wp_pure]
  refine .of_lists (by simp [eq_comm]) (multiplePayload_media t userId message fileType settings
    (singleLists fileName ratio thumbUrl orgUrl)) fun ref => ?_
  simp [MediaLists.mem_media, singleLists]

/-- The post that a single upload adds lists exactly what the upload stored. -/
theorem upload_puts (file : File) {fileType : FileType} (hfileType : fileType ≠ .userImage)
    (message : Option String) (postSettings : Option (List (PostSettings × Bool)))
    (userId : UserId) (userData : Option UserInfoModel) (s : Unit) (w : World) :
    (upload file fileType message postSettings userId userData).wp World.step
      (fun tr _ _ w' => WritesWhatItPuts tr w') s w := by
  unfold upload
  rw [wp_bind, wp_setLoading, ends_ok]
  refine wp_bind.mpr (wp_mono (wp_calls (thumbnailOf_calls fileType file) s _) ?_)
  intro tr out s' w' hcalls
  have hputs : ∀ ref, ¬ Returned (Puts ref) tr := fun ref =>
    not_returned_of_calls hcalls fun c a hc => hc.not_puts ref a
  have hnone : ∀ id, ¬ Returned (Writes .posts id) tr := fun id =>
    not_returned_of_calls hcalls fun c a hc => hc.media.not_writes .posts id a
  rcases out with e | thumbnail | thumbnail
  · exact .of_none (by simpa using hnone)
  · rw [ends_ok, wp_pure]
    exact .of_none (by simpa using hnone)
  rw [ends_ok, wp_bind, wp_getAspectRatio]
  refine ⟨.of_none (by simpa using hnone), ?_⟩
  rw [ends_ok, wp_bind, wp_uuidV4]
  intro fileName _
  rw [ends_ok, wp_tryFinally_tryCatch]
  refine wp_mono (storeAndPost_puts file hfileType message postSettings userId userData thumbnail
    thumbnail.aspectRatio fileName s' _) ?_
  intro tr' out' s'' w'' hadds
  have hend := (hadds.setLoading .imageUpload false).prepend
    ([⟨.setLoading .imageUpload true, .ok ()⟩] ++ tr ++
      [⟨.getAspectRatio thumbnail, .ok thumbnail.aspectRatio⟩, ⟨.uuidV4, .ok fileName⟩])
    (by simpa using hnone) (by simpa using hputs)
  cases out' with
  | ok b => simpa using hend
  | error e => simpa using hend

end ImageUploadNotifier

end TekkGram
