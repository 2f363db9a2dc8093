import TekkGram.Notifiers.ImageUpload

/-!
# Uploads under given outcomes

The outcomes of the calls of an upload of one picture are given in advance. They determine what the
upload of the picture stores and adds, by itself and as a list of one file, up to the names that it
generates.
-/

namespace TekkGram

open Interaction Async

/-- The outcomes of the calls of an upload: the calls on the picture answer or raise, the
others return or fail. -/
structure UploadOutcomes where
  readAsBytesSync : Except Exc Uint8List
  decodeImage : Except Exc (Option Image)
  copyResize : Except Exc Image
  encodeJpg : Except Exc Uint8List
  getAspectRatio : Except Exc ℚ
  putData : Bool
  putFile : Bool
  thumbnailUrl : Bool
  fileUrl : Bool
  add : Bool

namespace UploadOutcomes

/-- The test for a call that ended with the outcome that is given for it. -/
@[simp] def gives (o : UploadOutcomes) : AppEvent → Bool
  | ⟨.readAsBytesSync _, r⟩ => o.readAsBytesSync = r
  | ⟨.decodeImage _, r⟩ => o.decodeImage = r
  | ⟨.copyResize _ _, r⟩ => o.copyResize = r
  | ⟨.encodeJpg _, r⟩ => o.encodeJpg = r
  | ⟨.getAspectRatio _, r⟩ => o.getAspectRatio = r
  | ⟨.putData _ _, r⟩ => o.putData == r.isOk
  | ⟨.putFile _ _, r⟩ => o.putFile == r.isOk
  | ⟨.getDownloadURL ref, r⟩ =>
    (if ref.folder = thumbnails then o.thumbnailUrl else o.fileUrl) == r.isOk
  | ⟨.add _ _, r⟩ => o.add == r.isOk
  | _ => true

/-- Every call of a trace ended with its given outcome. -/
def Given (o : UploadOutcomes) (tr : List AppEvent) : Prop := ∀ e ∈ tr, o.gives e = true

instance (o : UploadOutcomes) (tr : List AppEvent) : Decidable (o.Given tr) :=
  inferInstanceAs (Decidable (∀ e ∈ tr, o.gives e = true))

/-- The thumbnail that the calls on the picture make; none of an undecodable picture. -/
def thumbnail (o : UploadOutcomes) : Except Exc (Option Uint8List) := do
  let _ ← o.readAsBytesSync
  match ← o.decodeImage with
  | none => return none
  | some _ => do
    let _ ← o.copyResize
    let thumbnailData ← o.encodeJpg
    return some thumbnailData

/-- The thumbnail with its aspect ratio. -/
def measured (o : UploadOutcomes) : Except Exc (Option (Uint8List × ℚ)) := do
  match ← o.thumbnail with
  | none => return none
  | some thumbnailData => do
    let ratio ← o.getAspectRatio
    return some (thumbnailData, ratio)

/-- Both objects are stored, and both of their URLs are fetched. -/
def Stores (o : UploadOutcomes) : Prop :=
  o.putData = true ∧ o.putFile = true ∧ o.thumbnailUrl = true ∧ o.fileUrl = true

/-- A post with these settings can be added. -/
def Posts (o : UploadOutcomes) (postSettings : Option (List (PostSettings × Bool))) : Prop :=
  postSettings.isSome = true ∧ o.add = true

variable {o : UploadOutcomes} {tr tr' : List AppEvent}

theorem thumbnail_of_unread {e : Exc} (hbytes : o.readAsBytesSync = .error e) :
    o.thumbnail = .error e := by
  rw [thumbnail, hbytes]
  rfl

theorem thumbnail_of_not_decoded {bytes : Uint8List} {e : Exc}
    (hbytes : o.readAsBytesSync = .ok bytes) (himage : o.decodeImage = .error e) :
    o.thumbnail = .error e := by
  rw [thumbnail, hbytes, himage]
  rfl

theorem thumbnail_of_undecodable {bytes : Uint8List} (hbytes : o.readAsBytesSync = .ok bytes)
    (himage : o.decodeImage = .ok none) : o.thumbnail = .ok none := by
  rw [thumbnail, hbytes, himage]
  rfl

theorem measured_of_error {e : Exc} (h : o.thumbnail = .error e) : o.measured = .error e := by
  rw [measured, h]
  rfl

theorem measured_of_none (h : o.thumbnail = .ok none) : o.measured = .ok none := by
  rw [measured, h]
  rfl

theorem measured_of_some {thumbnailData : Uint8List} {r : Except Exc ℚ}
    (h : o.thumbnail = .ok (some thumbnailData)) (hratio : o.getAspectRatio = r) :
    o.measured = r.map fun ratio => some (thumbnailData, ratio) := by
  subst hratio
  rw [measured, h]
  change (o.getAspectRatio.bind fun ratio => .ok (some (thumbnailData, ratio))) = _
  cases o.getAspectRatio <;> rfl

@[simp] theorem given_nil : o.Given [] := by
  simp [Given]

@[simp] theorem given_cons {e : AppEvent} : o.Given (e :: tr) ↔ o.gives e = true ∧ o.Given tr :=
  List.forall_mem_cons

@[simp] theorem given_append : o.Given (tr ++ tr') ↔ o.Given tr ∧ o.Given tr' :=
  List.forall_mem_append

end UploadOutcomes

/-- The object that a call has stored. -/
@[simp] def storedObject : AppEvent → Option (Reference × Blob)
  | ⟨.putData ref bytes, .ok _⟩ => some (ref, .data bytes)
  | ⟨.putFile ref file, .ok _⟩ => some (ref, .file file)
  | _ => none

/-- The payload of a post that a call has added. -/
@[simp] def addedPost : AppEvent → Option Doc
  | ⟨.add .posts payload, .ok _⟩ => some payload
  | _ => none

/-- The URL that a call has fetched, with the object it serves. -/
@[simp] def fetchedUrl : AppEvent → Option (String × Reference)
  | ⟨.getDownloadURL ref, .ok url⟩ => some (url, ref)
  | _ => none

/-- The objects that a trace has stored, in order. -/
def storedObjects (tr : List AppEvent) : List (Reference × Blob) := tr.filterMap storedObject

/-- The payloads of the posts that a trace has added. -/
def addedPosts (tr : List AppEvent) : List Doc := tr.filterMap addedPost

/-- The URLs that a trace has fetched. -/
def fetchedUrls (tr : List AppEvent) : List (String × Reference) := tr.filterMap fetchedUrl

section Traces

variable {e : AppEvent} {tr tr' : List AppEvent}

@[simp] theorem storedObjects_nil : storedObjects [] = [] := rfl

@[simp] theorem storedObjects_cons :
    storedObjects (e :: tr) = (storedObject e).toList ++ storedObjects tr := by
  rw [storedObjects, List.filterMap_cons]
  cases storedObject e <;> rfl

@[simp] theorem storedObjects_append :
    storedObjects (tr ++ tr') = storedObjects tr ++ storedObjects tr' := List.filterMap_append ..

@[simp] theorem addedPosts_nil : addedPosts [] = [] := rfl

@[simp] theorem addedPosts_cons :
    addedPosts (e :: tr) = (addedPost e).toList ++ addedPosts tr := by
  rw [addedPosts, List.filterMap_cons]
  cases addedPost e <;> rfl

@[simp] theorem addedPosts_append : addedPosts (tr ++ tr') = addedPosts tr ++ addedPosts tr' :=
  List.filterMap_append ..

theorem Call.MakesThumbnail.storedObject_eq {c : Call} (h : c.MakesThumbnail)
    (r : Fallible Exc Ans c) : storedObject ⟨c, r⟩ = none := by
  cases c <;> first | rfl | simp at h

theorem Call.Media.addedPost_eq {c : Call} (h : c.Media) (r : Fallible Exc Ans c) :
    addedPost ⟨c, r⟩ = none := by
  cases c <;> first | rfl | simp at h

/-- The calls of a loop over files add no post. -/
theorem addedPosts_of_media (h : ∀ e ∈ tr, e.call.Media) : addedPosts tr = [] :=
  List.filterMap_eq_nil_iff.mpr fun e he => (h e he).addedPost_eq e.reply

@[simp] theorem isOk_ok {α : Type} {a : α} : (Except.ok a : Except Exc α).isOk = true := rfl

@[simp] theorem isOk_error {α : Type} {e : Exc} : (Except.error e : Except Exc α).isOk = false :=
  rfl

end Traces

/-- Under given outcomes the calls on the picture make the given thumbnail. -/
theorem imageThumbnail_given {σ : Type} (o : UploadOutcomes) (n : Notifier) (file : File) (s : σ)
    (w : World) :
    (imageThumbnail n file : Action σ (Option Uint8List)).wp World.step
      (fun tr out _ _ => o.Given tr → out = o.thumbnail) s w := by
  unfold imageThumbnail
  rw [wp_bind, wp_readAsBytesSync]
  refine ⟨fun h => ?_, fun bytes _ => ?_⟩
  · exact (UploadOutcomes.thumbnail_of_unread (by simpa using h)).symm
  rw [ends_ok, wp_bind, wp_decodeImage]
  refine ⟨fun h => ?_, ?_, fun image _ => ?_⟩
  · obtain ⟨hbytes, himage⟩ : o.readAsBytesSync = .ok bytes ∧
        o.decodeImage = .error .unavailable := by simpa using h
    exact (UploadOutcomes.thumbnail_of_not_decoded hbytes himage).symm
  · rw [ends_ok, wp_bind, wp_setLoading, ends_ok, wp_pure]
    intro h
    obtain ⟨hbytes, himage⟩ : o.readAsBytesSync = .ok bytes ∧ o.decodeImage = .ok none := by
      simpa using h
    exact (UploadOutcomes.thumbnail_of_undecodable hbytes himage).symm
  rw [ends_ok, wp_bind, wp_copyResize]
  refine ⟨fun h => ?_, fun resized _ _ => ?_⟩
  · obtain ⟨hbytes, himage, hresized⟩ : o.readAsBytesSync = .ok bytes ∧
        o.decodeImage = .ok (some image) ∧ o.copyResize = .error .unavailable := by
      simpa using h
    rw [UploadOutcomes.thumbnail, hbytes, himage, hresized]
    rfl
  rw [ends_ok, wp_bind, wp_encodeJpg]
  refine ⟨fun h => ?_, ?_⟩
  · obtain ⟨hbytes, himage, hresized, hdata⟩ : o.readAsBytesSync = .ok bytes ∧
        o.decodeImage = .ok (some image) ∧ o.copyResize = .ok resized ∧
        o.encodeJpg = .error .unavailable := by simpa using h
    rw [UploadOutcomes.thumbnail, hbytes, himage, hresized, hdata]
    rfl
  · rw [ends_ok, wp_pure]
    intro h
    obtain ⟨hbytes, himage, hresized, hdata⟩ : o.readAsBytesSync = .ok bytes ∧
        o.decodeImage = .ok (some image) ∧ o.copyResize = .ok resized ∧
        o.encodeJpg = .ok ⟨resized.source, resized.width, resized.height⟩ := by simpa using h
    rw [UploadOutcomes.thumbnail, hbytes, himage, hresized, hdata]
    rfl

/-- Making the given thumbnail stores nothing, adds no post and keeps the locals. -/
theorem imageThumbnail_untouched {σ : Type} (o : UploadOutcomes) (n : Notifier) (file : File)
    (s : σ) (w : World) :
    (imageThumbnail n file : Action σ (Option Uint8List)).wp World.step
      (fun tr out s' _ => s' = s ∧ (o.Given tr → out = o.thumbnail) ∧ storedObjects tr = [] ∧
        addedPosts tr = []) s w := by
  refine wp_mono (wp_and (wp_and (imageThumbnail_given o n file s w)
    (imageThumbnail_spec n file s w)) (wp_calls (imageThumbnail_calls n file) s w)) ?_
  rintro tr out s' w' ⟨⟨hgiven, hs, -⟩, hcalls⟩
  exact ⟨hs, hgiven,
    List.filterMap_eq_nil_iff.mpr fun e he => (hcalls e he).storedObject_eq e.reply,
    addedPosts_of_media fun e he => (hcalls e he).media⟩

/-- The objects that an upload stores under a name. -/
def uploadedObjects (userId : UserId) (file : File) (name : String) (thumbnail : Uint8List)
    (storesThumbnail storesFile : Bool) : List (Reference × Blob) :=
  (if storesThumbnail then [(thumbnailReference userId name, .data thumbnail)] else []) ++
    if storesFile then [(⟨userId, FileType.image.collectionName, name⟩, .file file)] else []

/-- A post of one file that lists its objects under one name and its file under another. -/
def ImageUploadNotifier.listedApart (storageId listedName : String) (ratio : ℚ)
    (thumbnailUrl fileUrl : String) : MediaLists :=
  ⟨[storageId], [storageId], [listedName], [ratio], [thumbnailUrl], [fileUrl]⟩

section Ends

variable (o : UploadOutcomes) (file : File) (message : Option String)
  (postSettings : Option (List (PostSettings × Bool))) (userId : UserId) (tr : List AppEvent)

/-- How a single upload ends. -/
inductive SingleUpload : Except Exc Bool → Prop
  | raised {e : Exc} (hpicture : o.measured = .error e) (hstored : storedObjects tr = [])
      (hadded : addedPosts tr = []) : SingleUpload (.error e)
  | undecoded (hpicture : o.measured = .ok none) (hstored : storedObjects tr = [])
      (hadded : addedPosts tr = []) : SingleUpload (.ok false)
  | failed {thumbnail : Uint8List} {ratio : ℚ} (fileName : String)
      (hpicture : o.measured = .ok (some (thumbnail, ratio)))
      (hstored : storedObjects tr = uploadedObjects userId file fileName thumbnail o.putData
        (o.putData && o.putFile))
      (hadded : addedPosts tr = []) (hfails : ¬ (o.Stores ∧ o.Posts postSettings)) :
      SingleUpload (.ok false)
  | posted {thumbnail : Uint8List} {ratio : ℚ} {settings : List (PostSettings × Bool)}
      (fileName thumbUrl orgUrl : String)
      (hpicture : o.measured = .ok (some (thumbnail, ratio)))
      (hstored : storedObjects tr = uploadedObjects userId file fileName thumbnail o.putData
        (o.putData && o.putFile))
      (hstores : o.Stores) (hsettings : postSettings = some settings) (hadd : o.add = true)
      (hadded : addedPosts tr = [ImageUploadNotifier.multiplePayload userId message .image settings
        (ImageUploadNotifier.singleLists fileName ratio thumbUrl orgUrl)]) :
      SingleUpload (.ok true)

/-- How the upload of a list of one file ends: a failure before the post does not keep the post
from being added. -/
inductive MultipleUpload : Except Exc Bool → Prop
  | raised {e : Exc} (hpicture : o.measured = .error e) (hstored : storedObjects tr = [])
      (hadded : addedPosts tr = []) : MultipleUpload (.ok false)
  | undecoded (hpicture : o.measured = .ok none) (hstored : storedObjects tr = [])
      (hadded : addedPosts tr = []) (hposts : ¬ o.Posts postSettings) : MultipleUpload (.ok false)
  | postedEmpty (hpicture : o.measured = .ok none) (hposts : o.Posts postSettings) :
      MultipleUpload (.ok true)
  | failed {thumbnail : Uint8List} {ratio : ℚ} (fileName : String)
      (hpicture : o.measured = .ok (some (thumbnail, ratio)))
      (hstored : storedObjects tr = uploadedObjects userId file fileName thumbnail o.putData
        (o.putData && o.thumbnailUrl && o.putFile))
      (hadded : addedPosts tr = []) (hposts : ¬ o.Posts postSettings) : MultipleUpload (.ok false)
  | posted {thumbnail : Uint8List} {ratio : ℚ} {settings : List (PostSettings × Bool)}
      (fileName listedName : String) (hname : listedName ≠ fileName)
      (hpicture : o.measured = .ok (some (thumbnail, ratio)))
      (hsettings : postSettings = some settings) (hadd : o.add = true)
      (hadded : o.Stores → ∃ thumbUrl orgUrl,
        addedPosts tr = [ImageUploadNotifier.multiplePayload userId message .image settings
          (ImageUploadNotifier.listedApart fileName listedName ratio thumbUrl orgUrl)]) :
      MultipleUpload (.ok true)

end Ends

namespace ImageUploadNotifier

/-- Under given outcomes a single upload stores its thumbnail, then its original, and adds its
post exactly when everything before it succeeded. -/
theorem storeAndPost_given (o : UploadOutcomes) (file : File) (message : Option String)
    (postSettings : Option (List (PostSettings × Bool))) (userId : UserId)
    (userData : Option UserInfoModel) (thumbnail : Uint8List) (ratio : ℚ) (fileName : String)
    (s : Unit) (w : World) :
    (storeAndPost file .image message postSettings userId userData thumbnail ratio fileName).wp
      World.step (fun tr out _ _ => o.Given tr →
        storedObjects tr = uploadedObjects userId file fileName thumbnail o.putData
          (o.putData && o.putFile) ∧
        ((¬ (o.Stores ∧ o.Posts postSettings) ∧ (∃ e, out = .error e) ∧ addedPosts tr = []) ∨
          o.Stores ∧ ∃ settings thumbUrl orgUrl, postSettings = some settings ∧ o.add = true ∧
            out = .ok true ∧ addedPosts tr = [multiplePayload userId message .image settings
              (singleLists fileName ratio thumbUrl orgUrl)])) s w := by
  have hfolder := FileType.image.collectionName_ne_thumbnails
  unfold storeAndPost
  rw [wp_bind, wp_putData]
  refine ⟨fun h => ?_, ?_⟩
  · have hdata : o.putData = false := by simpa using h
    simp [hdata, uploadedObjects, UploadOutcomes.Stores]
  rw [ends_ok, wp_bind, wp_putFile]
  refine ⟨fun h => ?_, ?_⟩
  · obtain ⟨hdata, hfile⟩ : o.putData = true ∧ o.putFile = false := by simpa using h
    simp [hdata, hfile, uploadedObjects, UploadOutcomes.Stores]
  rw [ends_ok, if_neg (by simp), wp_bind, wp_getDownloadURL]
  refine ⟨fun h => ?_, fun hnone => ?_, fun _ thumbUrl => ?_⟩
  · obtain ⟨hdata, hfile, hthumbnail⟩ : o.putData = true ∧ o.putFile = true ∧
        o.thumbnailUrl = false := by simpa [thumbnailReference] using h
    simp [hdata, hfile, hthumbnail, uploadedObjects,
      UploadOutcomes.Stores]
  · simp [thumbnailReference, hfolder.symm] at hnone
  rw [ends_ok, wp_bind, wp_getDownloadURL]
  refine ⟨fun h => ?_, fun hnone => by simp at hnone, fun _ orgUrl => ?_⟩
  · obtain ⟨hdata, hfile, hthumbnail, hurl⟩ : o.putData = true ∧ o.putFile = true ∧
        o.thumbnailUrl = true ∧ o.fileUrl = false := by
      simpa [thumbnailReference, hfolder] using h
    simp [hdata, hfile, hthumbnail, hurl, uploadedObjects,
      UploadOutcomes.Stores]
  rw [ends_ok, wp_bind, wp_nullCheck]
  refine ⟨fun hnull h => ?_, fun settings hsettings => ?_⟩
  · obtain ⟨hdata, hfile, -⟩ : o.Stores := by
      simpa [thumbnailReference, hfolder, UploadOutcomes.Stores] using h
    simp [hdata, hfile, hnull, uploadedObjects, UploadOutcomes.Posts]
  rw [ends_ok, wp_bind, wp_add]
  refine ⟨fun h => ?_, fun id t _ => ?_⟩
  · obtain ⟨hdata, hfile, -, -, hadd⟩ : o.putData = true ∧ o.putFile = true ∧
        o.thumbnailUrl = true ∧ o.fileUrl = true ∧ o.add = false := by
      simpa [thumbnailReference, hfolder] using h
    simp [hdata, hfile, hadd, uploadedObjects, UploadOutcomes.Posts]
  rw [ends_ok, wp_pure]
  intro h
  obtain ⟨hdata, hfile, hthumbnail, hurl, hadd⟩ : o.putData = true ∧ o.putFile = true ∧
      o.thumbnailUrl = true ∧ o.fileUrl = true ∧ o.add = true := by
    simpa [thumbnailReference, hfolder] using h
  refine ⟨?_, .inr ⟨⟨hdata, hfile, hthumbnail, hurl⟩, settings, thumbUrl, orgUrl, hsettings, hadd,
    rfl, rfl⟩⟩
  simp [hdata, hfile, uploadedObjects]

/-- Under given outcomes an upload in a list stores its original only after the URL of its
thumbnail, and lists both objects when everything succeeded. -/
theorem storeMedia_given (o : UploadOutcomes) (userId : UserId) (fileName : String)
    (thumbnail : Uint8List) (file : File) (l : MediaLists) (w : World) :
    (storeMedia userId FileType.image.collectionName fileName thumbnail file).wp World.step
      (fun tr _ l' _ => o.Given tr →
        storedObjects tr = uploadedObjects userId file fileName thumbnail o.putData
          (o.putData && o.thumbnailUrl && o.putFile) ∧
        (o.Stores → ∃ thumbUrl orgUrl, l' = { l with
          thumbnailStorageIdList := l.thumbnailStorageIdList ++ [fileName]
          originalStorageIdList := l.originalStorageIdList ++ [fileName]
          thumbnailUrlList := l.thumbnailUrlList ++ [thumbUrl]
          originalUrlList := l.originalUrlList ++ [orgUrl] })) l w := by
  have hfolder := FileType.image.collectionName_ne_thumbnails
  unfold storeMedia
  rw [wp_bind, wp_putData]
  refine ⟨fun h => ?_, ?_⟩
  · have hdata : o.putData = false := by simpa using h
    simp [hdata, uploadedObjects, UploadOutcomes.Stores]
  rw [ends_ok, wp_bind, wp_modify, ends_ok, wp_bind, wp_getDownloadURL]
  refine ⟨fun h => ?_, fun hnone => by simp at hnone, fun _ thumbUrl => ?_⟩
  · obtain ⟨hdata, hthumbnail⟩ : o.putData = true ∧ o.thumbnailUrl = false := by
      simpa [thumbnailReference] using h
    simp [hdata, hthumbnail, uploadedObjects, UploadOutcomes.Stores]
  rw [ends_ok, wp_bind, wp_modify, ends_ok, wp_bind, wp_putFile]
  refine ⟨fun h => ?_, ?_⟩
  · obtain ⟨hdata, hthumbnail, hfile⟩ : o.putData = true ∧ o.thumbnailUrl = true ∧
        o.putFile = false := by simpa [thumbnailReference] using h
    simp [hdata, hthumbnail, hfile, uploadedObjects, UploadOutcomes.Stores]
  rw [ends_ok, wp_bind, wp_modify, ends_ok, wp_bind, wp_getDownloadURL]
  refine ⟨fun h => ?_, fun hnone => by simp at hnone, fun _ orgUrl => ?_⟩
  · obtain ⟨hdata, hthumbnail, hfile, hurl⟩ : o.putData = true ∧ o.thumbnailUrl = true ∧
        o.putFile = true ∧ o.fileUrl = false := by
      simpa [thumbnailReference, hfolder] using h
    simp [hdata, hthumbnail, hfile, hurl, uploadedObjects, UploadOutcomes.Stores]
  rw [ends_ok, wp_modify]
  intro h
  obtain ⟨hdata, hthumbnail, hfile, -⟩ : o.putData = true ∧ o.thumbnailUrl = true ∧
      o.putFile = true ∧ o.fileUrl = true := by
    simpa [thumbnailReference, hfolder] using h
  refine ⟨?_, fun _ => ⟨thumbUrl, orgUrl, rfl⟩⟩
  simp [hdata, hthumbnail, hfile, uploadedObjects]

/-- How a single upload ends under given outcomes. -/
theorem upload_given (o : UploadOutcomes) (file : File) (message : Option String)
    (postSettings : Option (List (PostSettings × Bool))) (userId : UserId)
    (userData : Option UserInfoModel) (s : Unit) (w : World) :
    (upload file .image message postSettings userId userData).wp World.step
      (fun tr out _ _ => o.Given tr → SingleUpload o file message postSettings userId tr out)
      s w := by
  unfold upload
  rw [wp_bind, wp_setLoading, ends_ok]
  refine wp_bind.mpr (wp_mono (imageThumbnail_untouched o .imageUpload file s _) ?_)
  rintro tr out s' w' ⟨rfl, hgiven, hstored, hadded⟩
  rcases out with e | thumbnail | thumbnail
  · intro h
    have hthumbnail : o.thumbnail = .error e := (hgiven (by simpa using h)).symm
    exact .raised (UploadOutcomes.measured_of_error hthumbnail) (by simpa using hstored)
      (by simpa using hadded)
  · rw [ends_ok, wp_pure]
    intro h
    have hthumbnail : o.thumbnail = .ok none := (hgiven (by simpa using h)).symm
    exact .undecoded (UploadOutcomes.measured_of_none hthumbnail) (by simpa using hstored)
      (by simpa using hadded)
  rw [ends_ok, wp_bind, wp_getAspectRatio]
  refine ⟨fun h => ?_, ?_⟩
  · obtain ⟨htr, hratio⟩ : o.Given tr ∧ o.getAspectRatio = .error .unavailable := by simpa using h
    exact .raised (UploadOutcomes.measured_of_some (hgiven htr).symm hratio)
      (by simpa using hstored) (by simpa using hadded)
  rw [ends_ok, wp_bind, wp_uuidV4]
  intro fileName _
  rw [ends_ok, wp_tryFinally_tryCatch]
  refine wp_mono (storeAndPost_given o file message postSettings userId userData thumbnail
    thumbnail.aspectRatio fileName s' _) ?_
  intro tr' out s'' w' hstore
  have hpicture (htr : o.Given tr) (hratio : o.getAspectRatio = .ok thumbnail.aspectRatio) :
      o.measured = .ok (some (thumbnail, thumbnail.aspectRatio)) :=
    UploadOutcomes.measured_of_some (hgiven htr).symm hratio
  cases out with
  | error e =>
    rw [ends_error]
    intro h
    obtain ⟨htr, hratio, htr'⟩ : o.Given tr ∧ o.getAspectRatio = .ok thumbnail.aspectRatio ∧
        o.Given tr' := by simpa using h
    obtain ⟨hstored', ⟨hfails, -, hadded'⟩ | ⟨-, _, _, _, -, -, hout, -⟩⟩ := hstore htr'
    · exact .failed fileName (hpicture htr hratio) (by simpa [hstored] using hstored')
        (by simpa [hadded] using hadded') hfails
    · cases hout
  | ok b =>
    rw [ends_ok]
    intro h
    obtain ⟨htr, hratio, htr'⟩ : o.Given tr ∧ o.getAspectRatio = .ok thumbnail.aspectRatio ∧
        o.Given tr' := by simpa using h
    obtain ⟨hstored', ⟨-, ⟨_, hout⟩, -⟩ | ⟨hstores, settings, thumbUrl, orgUrl, hsettings, hadd,
      hout, hadded'⟩⟩ := hstore htr'
    · cases hout
    · cases hout
      exact .posted fileName thumbUrl orgUrl (hpicture htr hratio)
        (by simpa [hstored] using hstored') hstores hsettings hadd
        (by simpa [hadded] using hadded')

/-- Under given outcomes the callback for the only file lists its objects and a second name. -/
theorem storeListedMedia_given (o : UploadOutcomes) (userId : UserId) (thumbnail : Uint8List)
    (file : File) (w : World) :
    (storeListedMedia userId FileType.image.collectionName thumbnail file).wp World.step
      (fun tr out l' _ => o.Given tr →
        (out = .error .unavailable ∧ o.getAspectRatio = .error .unavailable ∧
          storedObjects tr = []) ∨
        ∃ ratio fileName listedName, out = .ok () ∧ o.getAspectRatio = .ok ratio ∧
          listedName ≠ fileName ∧
          storedObjects tr = uploadedObjects userId file fileName thumbnail o.putData
            (o.putData && o.thumbnailUrl && o.putFile) ∧
          (o.Stores → ∃ thumbUrl orgUrl,
            l' = listedApart fileName listedName ratio thumbUrl orgUrl)) .empty w := by
  unfold storeListedMedia
  rw [wp_bind, wp_getAspectRatio]
  refine ⟨fun h => .inl ⟨rfl, by simpa using h, by simp⟩, ?_⟩
  rw [ends_ok, wp_bind, wp_modify, ends_ok, wp_bind, wp_uuidV4]
  intro fileName _
  rw [ends_ok, wp_bind, wp_uuidV4]
  intro listedName hfresh
  rw [ends_ok, wp_bind, wp_modify, ends_ok, wp_swallow]
  refine wp_mono (storeMedia_given o userId fileName thumbnail file _ _) ?_
  intro tr out l' w' hstore h
  obtain ⟨hratio, htr⟩ : o.getAspectRatio = .ok thumbnail.aspectRatio ∧ o.Given tr := by
    simpa using h
  obtain ⟨hstored, hlists⟩ := hstore htr
  have hname : listedName ≠ fileName := by
    rintro rfl
    simp at hfresh
  exact .inr ⟨thumbnail.aspectRatio, fileName, listedName, rfl, hratio, hname,
    by simpa using hstored, hlists⟩

/-- Under given outcomes the callback for the only file raises with the calls on the picture,
skips an undecodable picture, or lists the picture whatever storage does. -/
theorem uploadImageFile_given (o : UploadOutcomes) (userId : UserId) (file : File) (w : World) :
    (uploadImageFile userId .image file).wp World.step
      (fun tr out l' _ => o.Given tr →
        (∃ e, out = .error e ∧ o.measured = .error e ∧ storedObjects tr = []) ∨
        (out = .ok () ∧ o.measured = .ok none ∧ storedObjects tr = []) ∨
        ∃ thumbnail ratio fileName listedName, out = .ok () ∧
          o.measured = .ok (some (thumbnail, ratio)) ∧ listedName ≠ fileName ∧
          storedObjects tr = uploadedObjects userId file fileName thumbnail o.putData
            (o.putData && o.thumbnailUrl && o.putFile) ∧
          (o.Stores → ∃ thumbUrl orgUrl,
            l' = listedApart fileName listedName ratio thumbUrl orgUrl)) .empty w := by
  unfold uploadImageFile
  rw [wp_bind, wp_readAsBytesSync]
  refine ⟨fun h => ?_, fun bytes _ => ?_⟩
  · have hthumbnail := UploadOutcomes.thumbnail_of_unread (e := .unavailable) (by simpa using h)
    exact .inl ⟨_, rfl, UploadOutcomes.measured_of_error hthumbnail, by simp⟩
  rw [ends_ok, wp_bind, wp_decodeImage]
  refine ⟨fun h => ?_, ?_, fun image _ => ?_⟩
  · obtain ⟨hbytes, himage⟩ : o.readAsBytesSync = .ok bytes ∧
        o.decodeImage = .error .unavailable := by simpa using h
    have hthumbnail := UploadOutcomes.thumbnail_of_not_decoded hbytes himage
    exact .inl ⟨_, rfl, UploadOutcomes.measured_of_error hthumbnail, by simp⟩
  · rw [ends_ok, wp_setLoading]
    intro h
    obtain ⟨hbytes, himage⟩ : o.readAsBytesSync = .ok bytes ∧ o.decodeImage = .ok none := by
      simpa using h
    have hthumbnail := UploadOutcomes.thumbnail_of_undecodable hbytes himage
    exact .inr (.inl ⟨rfl, UploadOutcomes.measured_of_none hthumbnail, by simp⟩)
  rw [ends_ok]
  refine wp_bind.mpr (wp_mono (imageThumbnail_untouched o .imageUpload file MediaLists.empty w) ?_)
  rintro tr out l' w' ⟨rfl, hgiven, hstored, -⟩
  rcases out with e | thumbnail | thumbnail
  · intro h
    have hthumbnail : o.thumbnail = .error e := (hgiven (by simp_all)).symm
    exact .inl ⟨e, rfl, UploadOutcomes.measured_of_error hthumbnail, by simpa using hstored⟩
  · rw [ends_ok, wp_pure]
    intro h
    have hthumbnail : o.thumbnail = .ok none := (hgiven (by simp_all)).symm
    exact .inr (.inl ⟨rfl, UploadOutcomes.measured_of_none hthumbnail, by simpa using hstored⟩)
  · refine wp_mono (storeListedMedia_given o userId thumbnail file w') ?_
    intro tr' out l' w'' hlisted h
    obtain ⟨htr, htr'⟩ : o.Given tr ∧ o.Given tr' := by simp_all
    obtain ⟨rfl, hratio, hstored'⟩ | ⟨ratio, fileName, listedName, rfl, hratio, hname, hstored',
      hlists⟩ := hlisted htr'
    · exact .inl ⟨_, rfl, UploadOutcomes.measured_of_some (hgiven htr).symm hratio,
        by simp [hstored, hstored']⟩
    · exact .inr (.inr ⟨thumbnail, ratio, fileName, listedName, rfl,
        UploadOutcomes.measured_of_some (hgiven htr).symm hratio, hname,
        by simpa [hstored] using hstored', hlists⟩)

/-- How the upload of a list of one file ends under given outcomes. -/
theorem uploadMultipleImageFiles_given (o : UploadOutcomes) (file : File) (message : Option String)
    (postSettings : Option (List (PostSettings × Bool))) (userId : UserId) (s : Unit) (w : World) :
    (uploadMultipleImageFiles [file] message postSettings .image userId).wp World.step
      (fun tr out _ _ => o.Given tr → MultipleUpload o file message postSettings userId tr out)
      s w := by
  unfold uploadMultipleImageFiles uploadAndPost
  rw [wp_withLocals, wp_bind, wp_setLoading, ends_ok, wp_tryFinally_tryCatch, wp_bind,
    wp_forEach_singleton]
  refine wp_mono (wp_and (uploadImageFile_given o userId file _)
    (wp_calls (uploadImageFile_calls userId .image file) _ _)) ?_
  rintro tr out l w' ⟨hgiven, hcalls⟩
  have hadded := addedPosts_of_media hcalls
  cases out with
  | error e =>
    simp only [ends_error]
    intro h
    obtain ⟨e, he, hpicture, hstored⟩ | ⟨hout, -⟩ | ⟨_, _, _, _, hout, -⟩ :=
      hgiven (by simpa using h)
    · exact .raised hpicture (by simpa using hstored) (by simpa using hadded)
    · cases hout
    · cases hout
  | ok _ =>
    rw [ends_ok, wp_bind, wp_get, ends_ok, wp_bind, wp_nullCheck]
    have hfailed {tr' : List AppEvent} (htr : o.Given tr) (hposts : ¬ o.Posts postSettings)
        (hstored' : storedObjects tr' = storedObjects tr) (hadded' : addedPosts tr' = []) :
        MultipleUpload o file message postSettings userId tr' (.ok false) := by
      obtain ⟨e, hout, -⟩ | ⟨-, hpicture, hstored⟩ | ⟨thumbnail, ratio, fileName, listedName, -,
        hpicture, -, hstored, -⟩ := hgiven htr
      · cases hout
      · exact .undecoded hpicture (hstored'.trans hstored) hadded' hposts
      · exact .failed fileName hpicture (hstored'.trans hstored) hadded' hposts
    refine ⟨fun hnull => ?_, fun settings hsettings => ?_⟩
    · simp only [ends_error]
      intro h
      have hposts : ¬ o.Posts postSettings := by simp [UploadOutcomes.Posts, hnull]
      exact hfailed (by simpa using h) hposts (by simp) (by simpa using hadded)
    · rw [ends_ok, wp_bind, wp_add]
      refine ⟨?_, fun id t _ => ?_⟩
      · simp only [ends_error]
        intro h
        obtain ⟨htr, hadd⟩ : o.Given tr ∧ o.add = false := by simpa using h
        have hposts : ¬ o.Posts postSettings := by simp [UploadOutcomes.Posts, hadd]
        exact hfailed htr hposts (by simp) (by simpa using hadded)
      · rw [ends_ok, wp_pure, ends_ok]
        intro h
        obtain ⟨htr, hadd⟩ : o.Given tr ∧ o.add = true := by simpa using h
        obtain ⟨e, hout, -⟩ | ⟨-, hpicture, -⟩ | ⟨thumbnail, ratio, fileName, listedName, -,
          hpicture, hname, -, hlists⟩ := hgiven htr
        · cases hout
        · exact .postedEmpty hpicture ⟨by simp [hsettings], hadd⟩
        · refine .posted fileName listedName hname hpicture hsettings hadd fun hstores => ?_
          obtain ⟨thumbUrl, orgUrl, rfl⟩ := hlists hstores
          exact ⟨thumbUrl, orgUrl, by simp [hadded]⟩

end ImageUploadNotifier

end TekkGram
