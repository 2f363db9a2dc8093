import Mathlib.Logic.Equiv.Basic
import TekkGram.Media.Outcomes
import TekkGram.Model.Working

/-!
# One picture, uploaded alone or as a list

A picture can be uploaded by itself or as a list of one file. Two runs that meet the same outcomes
are compared up to a renaming of the names that they generate: by their results, by the objects
that they store and by the posts that they add.
-/

namespace TekkGram

open Interaction Async

section Renaming

variable (ρ : Equiv.Perm String)

/-- The object under the new name. -/
def Reference.rename (ref : Reference) : Reference := { ref with name := ρ ref.name }

/-- A stored object under its new name. -/
def renameObject (object : Reference × Blob) : Reference × Blob := (object.1.rename ρ, object.2)

/-- A string that holds a name, renamed. -/
def Scalar.rename : Scalar → Scalar
  | .string name => .string (ρ name)
  | s => s

/-- A list of names, renamed. -/
def Value.rename : Value → Value
  | .list items => .list (items.map (Scalar.rename ρ))
  | v => v

theorem Value.rename_strings (names : List String) :
    (Value.strings names).rename ρ = .strings (names.map ρ) := by
  simp [Value.strings, Value.rename, Scalar.rename]

/-- Two URLs serve the same object up to the renaming. -/
def ServeTheSame (tr tr' : List AppEvent) (url url' : String) : Prop :=
  ∃ ref, (url, ref) ∈ fetchedUrls tr ∧ (url', ref.rename ρ) ∈ fetchedUrls tr'

end Renaming

/-- The fields of a post that hold generated names. -/
def PostKey.names : List String :=
  [PostKey.fileName, PostKey.thumbnailStorageId, PostKey.originalFileStorageId]

/-- The fields of a post that hold URLs. -/
def PostKey.urls : List String := [PostKey.thumbnailUrl, PostKey.fileUrl]

theorem PostKey.forall_names {P : String → Prop} : (∀ key ∈ PostKey.names, P key) ↔
    P PostKey.fileName ∧ P PostKey.thumbnailStorageId ∧ P PostKey.originalFileStorageId := by
  simp [PostKey.names]

theorem PostKey.forall_urls {P : String → Prop} :
    (∀ key ∈ PostKey.urls, P key) ↔ P PostKey.thumbnailUrl ∧ P PostKey.fileUrl := by
  simp [PostKey.urls]

/-- Two posts are the same up to a renaming: names are renamed, each URL serves the renamed
object, and all other fields are equal. -/
structure SamePost (ρ : Equiv.Perm String) (SameUrl : String → String → Prop) (d d' : Doc) :
    Prop where
  names : ∀ key ∈ PostKey.names, d'.field key = (d.field key).rename ρ
  urls : ∀ key ∈ PostKey.urls, ∃ urls urls', d.field key = .strings urls ∧
    d'.field key = .strings urls' ∧ List.Forall₂ SameUrl urls urls'
  others : ∀ key, key ∉ PostKey.names → key ∉ PostKey.urls → d'.field key = d.field key

/-- Two uploads agree: they end alike, and up to one renaming of the generated names they have
stored the same objects and added the same posts. -/
def UploadsAgree (out : Except Exc Bool) (tr : List AppEvent) (out' : Except Exc Bool)
    (tr' : List AppEvent) : Prop :=
  out' = out ∧ ∃ ρ : Equiv.Perm String,
    (storedObjects tr').Perm ((storedObjects tr).map (renameObject ρ)) ∧
      List.Forall₂ (SamePost ρ (ServeTheSame ρ tr tr')) (addedPosts tr) (addedPosts tr')

namespace ImageUploadNotifier

theorem sameUrl_of_strings {SameUrl : String → String → Prop} {url url' : String}
    (h : ∃ urls urls', Value.strings [url] = .strings urls ∧ Value.strings [url'] = .strings urls' ∧
      List.Forall₂ SameUrl urls urls') : SameUrl url url' := by
  obtain ⟨urls, urls', hurl, hurl', hsame⟩ := h
  obtain rfl := Value.strings_inj.mp hurl
  obtain rfl := Value.strings_inj.mp hurl'
  exact (List.forall₂_cons.mp hsame).1

/-- The post of a single upload is the post of a list of one file exactly when the list repeats
the name of its objects. -/
theorem samePost_listedApart_iff {ρ : Equiv.Perm String} {SameUrl : String → String → Prop}
    (userId : UserId) (message : Option String) (fileType : FileType)
    (settings : List (PostSettings × Bool)) (ratio : ℚ)
    (fileName storageId listedName thumbUrl orgUrl thumbUrl' orgUrl' : String) :
    SamePost ρ SameUrl
        (multiplePayload userId message fileType settings
          (singleLists fileName ratio thumbUrl orgUrl))
        (multiplePayload userId message fileType settings
          (listedApart storageId listedName ratio thumbUrl' orgUrl')) ↔
      storageId = ρ fileName ∧ listedName = storageId ∧ SameUrl thumbUrl thumbUrl' ∧
        SameUrl orgUrl orgUrl' := by
  constructor
  · rintro ⟨hnames, hurls, -⟩
    obtain ⟨hlisted, hstored, -⟩ := PostKey.forall_names.mp hnames
    obtain ⟨hthumbnails, horiginals⟩ := PostKey.forall_urls.mp hurls
    replace hlisted : Value.strings [listedName] = (Value.strings [fileName]).rename ρ := hlisted
    replace hstored : Value.strings [storageId] = (Value.strings [fileName]).rename ρ := hstored
    rw [Value.rename_strings, Value.strings_inj, List.map_singleton, List.singleton_inj]
      at hlisted hstored
    exact ⟨hstored, hlisted.trans hstored.symm, sameUrl_of_strings hthumbnails,
      sameUrl_of_strings horiginals⟩
  · rintro ⟨rfl, rfl, hthumbnail, horiginal⟩
    refine ⟨PostKey.forall_names.mpr ?_, PostKey.forall_urls.mpr ?_, ?_⟩
    · refine ⟨?_, ?_, ?_⟩ <;> exact (Value.rename_strings ρ [fileName]).symm
    · exact ⟨⟨[thumbUrl], [thumbUrl'], rfl, rfl, .cons hthumbnail .nil⟩,
        ⟨[orgUrl], [orgUrl'], rfl, rfl, .cons horiginal .nil⟩⟩
    · intro key hnames hurls
      simp only [PostKey.names, PostKey.urls, List.mem_cons, List.not_mem_nil, or_false,
        not_or] at hnames hurls
      obtain ⟨hname, hthumbnailId, horiginalId⟩ := hnames
      obtain ⟨hthumbnailUrl, hfileUrl⟩ := hurls
      simp only [multiplePayload, postPayload, Doc.field_cons, if_neg hname, if_neg hthumbnailId,
        if_neg horiginalId, if_neg hthumbnailUrl, if_neg hfileUrl]
      rfl

end ImageUploadNotifier

/-- The outcomes under which it makes no difference how the picture is uploaded: no call on the
picture raises, no post can be added, and the original is not stored after the URL of its
thumbnail was missing. -/
structure UploadOutcomes.MakesNoDifference (o : UploadOutcomes)
    (postSettings : Option (List (PostSettings × Bool))) : Prop where
  images : ∀ e, o.measured ≠ .error e
  unposted : ¬ o.Posts postSettings
  originals : ∀ picture, o.measured = .ok (some picture) → o.putData = true →
    o.thumbnailUrl = false → o.putFile = false

/-- One object more or less cannot be renamed away. -/
theorem storesFile_eq_of_perm {ρ : Equiv.Perm String} {userId : UserId} {file : File}
    {name name' : String} {thumbnail : Uint8List} {storesThumbnail storesFile storesFile' : Bool}
    (h : (uploadedObjects userId file name' thumbnail storesThumbnail storesFile').Perm
      ((uploadedObjects userId file name thumbnail storesThumbnail storesFile).map
        (renameObject ρ))) : storesFile' = storesFile := by
  have hlength := h.length_eq
  cases storesThumbnail <;> cases storesFile <;> cases storesFile' <;>
    simp [uploadedObjects] at hlength ⊢

/-- Objects stored under one name are those stored under another, renamed. -/
theorem map_renameObject_uploadedObjects {ρ : Equiv.Perm String} (userId : UserId) (file : File)
    (name : String) (thumbnail : Uint8List) (storesThumbnail storesFile : Bool) :
    (uploadedObjects userId file name thumbnail storesThumbnail storesFile).map (renameObject ρ) =
      uploadedObjects userId file (ρ name) thumbnail storesThumbnail storesFile := by
  cases storesThumbnail <;> cases storesFile <;> rfl

section Agree

variable {o : UploadOutcomes} {file : File} {message : Option String}
  {postSettings : Option (List (PostSettings × Bool))} {userId : UserId}
  {tr tr' : List AppEvent} {out out' : Except Exc Bool}

/-- Without a post the two uploads differ at most in the stored original. -/
theorem uploadsAgree_of_makesNoDifference
    (hsingle : SingleUpload o file message postSettings userId tr out)
    (hmultiple : MultipleUpload o file message postSettings userId tr' out')
    (h : o.MakesNoDifference postSettings) : UploadsAgree out tr out' tr' := by
  cases hsingle with
  | raised hpicture => exact absurd hpicture (h.images _)
  | posted fileName thumbUrl orgUrl hpicture hstored hstores hsettings hadd =>
    exact absurd ⟨by simp [hsettings], hadd⟩ h.unposted
  | undecoded hpicture hstored hadded =>
    cases hmultiple with
    | raised hpicture' => cases hpicture.symm.trans hpicture'
    | failed _ hpicture' => cases hpicture.symm.trans hpicture'
    | posted _ _ _ hpicture' => cases hpicture.symm.trans hpicture'
    | postedEmpty _ hposts => exact absurd hposts h.unposted
    | undecoded _ hstored' hadded' =>
      exact ⟨rfl, Equiv.refl _, by simp [hstored, hstored'], by simp [hadded, hadded']⟩
  | @failed thumbnail ratio fileName hpicture hstored hadded =>
    cases hmultiple with
    | raised hpicture' => cases hpicture.symm.trans hpicture'
    | undecoded hpicture' => cases hpicture.symm.trans hpicture'
    | postedEmpty hpicture' => cases hpicture.symm.trans hpicture'
    | posted _ _ _ _ hsettings hadd => exact absurd ⟨by simp [hsettings], hadd⟩ h.unposted
    | failed fileName' hpicture' hstored' hadded' =>
      cases hpicture.symm.trans hpicture'
      have hfile : (o.putData && o.thumbnailUrl && o.putFile) = (o.putData && o.putFile) := by
        have horiginal := h.originals _ hpicture
        grind
      refine ⟨rfl, Equiv.swap fileName fileName', ?_, by simp [hadded, hadded']⟩
      rw [hstored, hstored', map_renameObject_uploadedObjects, Equiv.swap_apply_left, hfile]

/-- Uploads that agree have added no post, since a list gives its file a second name. -/
theorem makesNoDifference_of_uploadsAgree
    (hsingle : SingleUpload o file message postSettings userId tr out)
    (hmultiple : MultipleUpload o file message postSettings userId tr' out')
    (h : UploadsAgree out tr out' tr') : o.MakesNoDifference postSettings := by
  obtain ⟨hout, ρ, hobjects, hposts⟩ := h
  cases hsingle with
  | raised => cases hmultiple <;> cases hout
  | undecoded hpicture =>
    cases hmultiple with
    | raised hpicture' => cases hpicture.symm.trans hpicture'
    | failed _ hpicture' => cases hpicture.symm.trans hpicture'
    | posted => cases hout
    | postedEmpty => cases hout
    | undecoded _ _ _ hunposted =>
      exact ⟨by simp [hpicture], hunposted, by simp [hpicture]⟩
  | failed fileName hpicture hstored =>
    cases hmultiple with
    | raised hpicture' => cases hpicture.symm.trans hpicture'
    | undecoded hpicture' => cases hpicture.symm.trans hpicture'
    | posted => cases hout
    | postedEmpty => cases hout
    | failed fileName' hpicture' hstored' _ hunposted =>
      cases hpicture.symm.trans hpicture'
      rw [hstored, hstored'] at hobjects
      have hfile := storesFile_eq_of_perm hobjects
      refine ⟨by simp [hpicture], hunposted, fun _ _ hdata hurl => ?_⟩
      simpa [hdata, hurl] using hfile.symm
  | posted fileName thumbUrl orgUrl hpicture _ hstores hsettings _ hadded =>
    cases hmultiple with
    | raised => cases hout
    | undecoded => cases hout
    | failed => cases hout
    | postedEmpty hpicture' => cases hpicture.symm.trans hpicture'
    | posted storageId listedName hname hpicture' hsettings' _ hlisted =>
      cases hpicture.symm.trans hpicture'
      cases hsettings.symm.trans hsettings'
      obtain ⟨thumbUrl', orgUrl', hadded'⟩ := hlisted hstores
      rw [hadded, hadded'] at hposts
      have hsame := (List.forall₂_cons.mp hposts).1
      obtain ⟨-, hlistedName, -⟩ := (ImageUploadNotifier.samePost_listedApart_iff ..).mp hsame
      exact absurd hlistedName hname

end Agree

/-- The two ways of uploading a picture agree exactly when no call on the picture raises, no post
can be added, and the original is not stored after the URL of its thumbnail was missing. -/
theorem uploadsAgree_iff {o : UploadOutcomes} {file : File} {message : Option String}
    {postSettings : Option (List (PostSettings × Bool))} {userId : UserId}
    {userData : Option UserInfoModel} {w w₁ w' w₁' : World} {tr tr' : List AppEvent}
    {out out' : Except Exc Bool}
    (h : Runs World.step w
      (ImageUploadNotifier.upload file .image message postSettings userId userData ())
      tr (out, ()) w₁)
    (h' : Runs World.step w'
      (ImageUploadNotifier.uploadMultipleImageFiles [file] message postSettings .image userId ())
      tr' (out', ()) w₁')
    (ho : o.Given tr) (ho' : o.Given tr') :
    UploadsAgree out tr out' tr' ↔ o.MakesNoDifference postSettings := by
  have hsingle := (ImageUploadNotifier.upload_given o file message postSettings userId userData
    () w).elim h ho
  have hmultiple := (ImageUploadNotifier.uploadMultipleImageFiles_given o file message postSettings
    userId () w').elim h' ho'
  exact ⟨makesNoDifference_of_uploadsAgree hsingle hmultiple,
    uploadsAgree_of_makesNoDifference hsingle hmultiple⟩

/-- The outcomes of an upload in which every call succeeds. -/
def UploadOutcomes.working (file : File) : UploadOutcomes where
  readAsBytesSync := .ok ⟨file, 4, 3⟩
  decodeImage := .ok (some ⟨file, 4, 3⟩)
  copyResize := .ok ⟨file, Constants.imageThumbnailWidth, 3⟩
  encodeJpg := .ok ⟨file, Constants.imageThumbnailWidth, 3⟩
  getAspectRatio := .ok (Uint8List.aspectRatio ⟨file, Constants.imageThumbnailWidth, 3⟩)
  putData := true
  putFile := true
  thumbnailUrl := true
  fileUrl := true
  add := true

/-- Without settings both uploads store the picture and add no post. -/
theorem uploadsAgree_iff_without_settings :
    ∃ w₁ w₁' tr tr' out out', Runs World.step World.initial
      (ImageUploadNotifier.upload ⟨"a.jpg"⟩ .image none none "u" none ()) tr (out, ()) w₁ ∧
      Runs World.step World.initial
        (ImageUploadNotifier.uploadMultipleImageFiles [⟨"a.jpg"⟩] none none .image "u" ())
        tr' (out', ()) w₁' ∧ UploadsAgree out tr out' tr' := by
  have hexec : ((ImageUploadNotifier.upload ⟨"a.jpg"⟩ .image none none "u" none ()).exec World.step
      World.working 0 World.initial).any (fun r =>
        (UploadOutcomes.working ⟨"a.jpg"⟩).Given r.1) = true := by decide +kernel
  have hexec' : ((ImageUploadNotifier.uploadMultipleImageFiles [⟨"a.jpg"⟩] none none .image
      "u" ()).exec World.step World.working 0 World.initial).any (fun r =>
        (UploadOutcomes.working ⟨"a.jpg"⟩).Given r.1) = true := by decide +kernel
  obtain ⟨tr, ⟨out, _⟩, w₁, hrun, hgiven⟩ := Program.exec_any hexec
  obtain ⟨tr', ⟨out', _⟩, w₁', hrun', hgiven'⟩ := Program.exec_any hexec'
  have hsame : (UploadOutcomes.working ⟨"a.jpg"⟩).MakesNoDifference none := by
    refine ⟨fun e he => ?_, by simp [UploadOutcomes.Posts], fun _ _ _ hurl => ?_⟩
    · cases he
    · cases hurl
  exact ⟨w₁, w₁', tr, tr', out, out', hrun, hrun', (uploadsAgree_iff hrun hrun'
    (of_decide_eq_true hgiven) (of_decide_eq_true hgiven')).mpr hsame⟩

/-- When every call succeeds, the post of the list gives its file a name that no object has. -/
theorem not_uploadsAgree_of_working :
    ¬ ∀ (o : UploadOutcomes) (file : File) (message : Option String)
      (postSettings : Option (List (PostSettings × Bool))) (userId : UserId)
      (userData : Option UserInfoModel) (w w₁ w₁' : World) (tr tr' : List AppEvent)
      (out out' : Except Exc Bool),
      Runs World.step w
        (ImageUploadNotifier.upload file .image message postSettings userId userData ())
        tr (out, ()) w₁ →
      Runs World.step w
        (ImageUploadNotifier.uploadMultipleImageFiles [file] message postSettings .image userId ())
        tr' (out', ()) w₁' →
      o.Given tr → o.Given tr' → UploadsAgree out tr out' tr' := by
  intro hall
  have hexec : ((ImageUploadNotifier.upload ⟨"a.jpg"⟩ .image none (some []) "u" none ()).exec
      World.step World.working 0 World.initial).any (fun r =>
        (UploadOutcomes.working ⟨"a.jpg"⟩).Given r.1) = true := by decide +kernel
  have hexec' : ((ImageUploadNotifier.uploadMultipleImageFiles [⟨"a.jpg"⟩] none (some []) .image
      "u" ()).exec World.step World.working 0 World.initial).any (fun r =>
        (UploadOutcomes.working ⟨"a.jpg"⟩).Given r.1) = true := by decide +kernel
  obtain ⟨tr, ⟨out, _⟩, w₁, hrun, hgiven⟩ := Program.exec_any hexec
  obtain ⟨tr', ⟨out', _⟩, w₁', hrun', hgiven'⟩ := Program.exec_any hexec'
  have hagree := hall _ _ _ _ _ _ _ _ _ _ _ _ _ hrun hrun' (of_decide_eq_true hgiven)
    (of_decide_eq_true hgiven')
  have hsingle := (ImageUploadNotifier.upload_given _ ⟨"a.jpg"⟩ none (some []) "u" none () _).elim
    hrun (of_decide_eq_true hgiven)
  have hmultiple := (ImageUploadNotifier.uploadMultipleImageFiles_given _ ⟨"a.jpg"⟩ none (some [])
    "u" () _).elim hrun' (of_decide_eq_true hgiven')
  exact (makesNoDifference_of_uploadsAgree hsingle hmultiple hagree).unposted ⟨rfl, rfl⟩

end TekkGram
