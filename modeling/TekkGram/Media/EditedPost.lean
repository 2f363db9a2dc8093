import TekkGram.Media.Operation
import TekkGram.Model.Working

/-!
# A successful media edit is consistent

The edit of a post's media stops at the first failure, so that a successful one has processed
every file: the six lists are the columns of one album with an entry for each file that has a
thumbnail, and every entry carries one name.
-/

namespace TekkGram

open Interaction Async

/-- The answers of the decoder in order, each with the file that was decoded and whether it is a
picture. -/
def decodings (tr : List AppEvent) : List (File × Bool) :=
  tr.filterMap fun
    | ⟨.decodeImage bytes, .ok image⟩ => some (bytes.source, image.isSome)
    | _ => none

/-- The files with an entry: of pictures those that could be decoded, and every video. -/
def listedFiles (fileType : FileType) (files : List File) (tr : List AppEvent) : List File :=
  match fileType with
  | .image => ((decodings tr).filter (·.2)).map (·.1)
  | _ => files

@[simp] theorem decodings_append (tr tr' : List AppEvent) :
    decodings (tr ++ tr') = decodings tr ++ decodings tr' := List.filterMap_append

/-- Calls that are no decoding do not count. -/
theorem decodings_eq_nil {tr : List AppEvent} (h : ∀ e ∈ tr, ∀ bytes, e.call ≠ .decodeImage bytes) :
    decodings tr = [] := by
  refine List.filterMap_eq_nil_iff.mpr fun e he => ?_
  split
  · exact absurd rfl (h _ he _)
  · rfl

theorem listedFiles_append (fileType : FileType) (files files' : List File)
    (tr tr' : List AppEvent) : listedFiles fileType (files ++ files') (tr ++ tr') =
      listedFiles fileType files tr ++ listedFiles fileType files' tr' := by
  cases fileType <;> simp [listedFiles]

/-- What an edit has made of these files: the decoder was asked for each picture once, and the
listed files have an entry each, under one name and stored. -/
structure Edited (w₀ w : World) (userId : UserId) (fileType : FileType) (files : List File)
    (tr : List AppEvent) (album : List MediaEntry) : Prop where
  grows : w₀.Grows w
  decoded : fileType = .image → (decodings tr).map (·.1) = files
  listed : album.map MediaEntry.file = listedFiles fileType files tr
  entries : ∀ e ∈ album, e.fileName = e.storageId ∧ e.storageId ∈ w.uuids ∧
    e.StoredIn w userId fileType.collectionName

section Edited

variable {w₀ w w' : World} {userId : UserId} {fileType : FileType} {files files' : List File}
  {tr tr' : List AppEvent} {album album' : List MediaEntry}

theorem Edited.nil : Edited w w userId fileType [] [] [] where
  grows := .refl
  decoded _ := rfl
  listed := by cases fileType <;> rfl
  entries := by simp

/-- What is made of further files follows what was made before. -/
theorem Edited.append (h : Edited w₀ w userId fileType files tr album)
    (h' : Edited w w' userId fileType files' tr' album') :
    Edited w₀ w' userId fileType (files ++ files') (tr ++ tr') (album ++ album') where
  grows := h.grows.trans h'.grows
  decoded hi := by rw [decodings_append, List.map_append, h.decoded hi, h'.decoded hi]
  listed := by rw [List.map_append, h.listed, h'.listed, listedFiles_append]
  entries e he := by
    rcases List.mem_append.mp he with he | he
    · obtain ⟨hname, hdrawn, hstored⟩ := h.entries e he
      exact ⟨hname, h'.grows.uuids hdrawn, hstored.grows hdrawn h'.grows⟩
    · exact h'.entries e he

/-- Calls around an edit that decode nothing do not change what it has made. -/
theorem Edited.around (h : Edited w₀ w userId fileType files tr album) (pre post : List AppEvent)
    (hpre : decodings pre = []) (hpost : decodings post = []) :
    Edited w₀ w userId fileType files (pre ++ (tr ++ post)) album := by
  have hsame : decodings (pre ++ (tr ++ post)) = decodings tr := by simp [hpre, hpost]
  refine ⟨h.grows, fun hi => hsame ▸ h.decoded hi, ?_, h.entries⟩
  rw [h.listed]
  cases fileType <;> simp only [listedFiles, hsame]

/-- What an edit has made since a later world it has made since an earlier one. -/
theorem Edited.of_grows (h : Edited w w' userId fileType files tr album) (hg : w₀.Grows w) :
    Edited w₀ w' userId fileType files tr album :=
  { h with grows := hg.trans h.grows }

end Edited

namespace EditPostNotifier

/-- Storing a file that has a thumbnail adds its entry to the lists. -/
theorem storeNamedMedia_lists {userId folder : String} (hfolder : folder ≠ thumbnails)
    {thumbnail : Uint8List} {file : File} (hsource : thumbnail.source = file) (l : MediaLists)
    (w : World) :
    (storeNamedMedia userId folder thumbnail file).wp World.step
      (fun tr out l' w' => decodings tr = [] ∧ (out = .ok () → ∃ e : MediaEntry, w.Grows w' ∧
        l' = l.push e ∧ e.file = file ∧ e.fileName = e.storageId ∧ e.storageId ∈ w'.uuids ∧
        e.StoredIn w' userId folder)) l w := by
  subst hsource
  have hcalls : (storeNamedMedia userId folder thumbnail thumbnail.source).Calls
      fun c => ∀ bytes, c ≠ .decodeImage bytes := by
    unfold storeNamedMedia storeMedia
    refine calls_bind (calls_call nofun) fun _ => calls_bind calls_modify fun _ => ?_
    refine calls_bind (calls_call nofun) fun _ => calls_bind calls_modify fun _ => ?_
    refine calls_bind (calls_call nofun) fun _ => calls_bind calls_modify fun _ => ?_
    refine calls_bind (calls_call nofun) fun _ => calls_bind calls_modify fun _ => ?_
    refine calls_bind (calls_call nofun) fun _ => calls_bind calls_modify fun _ => ?_
    exact calls_bind (calls_call nofun) fun _ => calls_modify
  refine wp_and (wp_mono (wp_calls hcalls l w) fun _ _ _ _ h => decodings_eq_nil h) ?_
  unfold storeNamedMedia
  rw [wp_bind, wp_getAspectRatio]
  refine ⟨nofun, ?_⟩
  rw [ends_ok, wp_bind, wp_modify, ends_ok, wp_bind, wp_uuidV4]
  intro fileName hfresh
  rw [ends_ok, wp_bind, wp_modify, ends_ok]
  refine wp_mono (storeMedia_spec hfolder thumbnail _ _ _) ?_
  rintro tr out l' w' ⟨-, hunder, ⟨thumbUrl, orgUrl, rfl, -, -, rfl, ht, ho, htu, hou⟩ |
    ⟨e, ids, urls, originals, rfl, -⟩⟩
  · intro _
    refine ⟨⟨thumbnail, fileName, fileName, thumbUrl, orgUrl⟩, ?_, rfl, rfl, rfl, ?_,
      ⟨ht, ho, htu, hou⟩⟩
    · exact (World.Grows.refl.draw fileName).storesUnder hunder hfresh
    · rw [hunder.uuids]
      exact List.mem_cons_self ..
  · exact nofun

/-- Making a picture's thumbnail asks the decoder once. -/
theorem imageThumbnail_decodings (notifier : Notifier) (file : File) (l : MediaLists) (w : World) :
    (imageThumbnail notifier file : Action MediaLists (Option Uint8List)).wp World.step
      (fun tr out _ _ => ∀ thumbnail, out = .ok thumbnail →
        decodings tr = [(file, thumbnail.isSome)]) l w := by
  unfold imageThumbnail
  rw [wp_bind, wp_readAsBytesSync]
  refine ⟨by simp, fun bytes hbytes => ?_⟩
  subst hbytes
  rw [ends_ok, wp_bind, wp_decodeImage]
  refine ⟨by simp, ?_, fun image _ => ?_⟩
  · rw [ends_ok, wp_bind, wp_setLoading, ends_ok, wp_pure]
    rintro thumbnail ⟨⟩
    rfl
  · rw [ends_ok, wp_bind, wp_copyResize]
    refine ⟨by simp, fun resized _ _ => ?_⟩
    rw [ends_ok, wp_bind, wp_encodeJpg]
    refine ⟨by simp, ?_⟩
    rw [ends_ok, wp_pure]
    rintro thumbnail ⟨⟩
    rfl

/-- One iteration that returns has made of its file what an edit makes of it. -/
theorem editImageFile_edited (userId : UserId) (fileType : FileType) (file : File)
    (before : List MediaEntry) (w : World) :
    (editImageFile userId fileType file).wp World.step
      (fun tr out l' w' => out = .ok () → ∃ album, l' = .ofAlbum (before ++ album) ∧
        Edited w w' userId fileType [file] tr album) (.ofAlbum before) w := by
  have hstore : ∀ {thumbnail : Uint8List}, thumbnail.source = file → ∀ {pre : List AppEvent},
      (fileType = .image → decodings pre = [(file, true)]) → fileType ≠ .userImage →
      (storeNamedMedia userId fileType.collectionName thumbnail file).wp World.step
        (fun tr out l' w' => out = .ok () → ∃ album, l' = .ofAlbum (before ++ album) ∧
          Edited w w' userId fileType [file] (pre ++ tr) album) (.ofAlbum before) w := by
    intro thumbnail hsource pre hpre huser
    refine wp_mono (storeNamedMedia_lists fileType.collectionName_ne_thumbnails hsource _ w) ?_
    rintro tr out l' w' ⟨hnone, hout⟩ hok
    obtain ⟨e, hgrows, rfl, hfile, hname, hdrawn, hstored⟩ := hout hok
    refine ⟨[e], MediaLists.push_ofAlbum before e, hgrows, fun hi => ?_, ?_, ?_⟩
    · simp [hpre hi, hnone]
    · cases fileType with
      | image => simp [listedFiles, hpre rfl, hnone, hfile]
      | video => simp [listedFiles, hfile]
      | userImage => exact absurd rfl huser
    · intro e' he'
      rw [List.mem_singleton.mp he']
      exact ⟨hname, hdrawn, hstored⟩
  unfold editImageFile
  cases fileType with
  | userImage => exact wp_throw.mpr nofun
  | video =>
    refine wp_bind.mpr (wp_mono (videoThumbnail_spec .editPost file _ w) ?_)
    rintro tr out l' w' ⟨rfl, -, -, -, ⟨e, rfl, -, rfl⟩ | ⟨e, rfl, -, rfl⟩ |
      ⟨thumbnail, rfl, hsource, -, rfl⟩⟩
    · exact nofun
    · exact nofun
    · exact hstore hsource nofun nofun
  | image =>
    refine wp_bind.mpr (wp_mono (wp_and (imageThumbnail_spec .editPost file _ w)
      (imageThumbnail_decodings .editPost file _ w)) ?_)
    rintro tr out l' w' ⟨⟨rfl, -, -, ⟨e, rfl, -, rfl⟩ | ⟨rfl, -, -, rfl⟩ |
      ⟨thumbnail, rfl, hsource, -, -, rfl⟩⟩, hdecoded⟩
    · exact nofun
    · have hskipped := hdecoded none rfl
      rw [ends_ok, wp_pure, List.append_nil]
      intro _
      refine ⟨[], by rw [List.append_nil], .setLoading .refl _ _, fun _ => ?_, ?_, by simp⟩
      · rw [hskipped]
        rfl
      · simp [listedFiles, hskipped]
    · exact hstore hsource (fun _ => hdecoded _ rfl) nofun

/-- The loop makes of the files what an edit makes of them. -/
theorem forEach_edited (userId : UserId) (fileType : FileType) (files : List File) (w₀ : World) :
    (forEach files (editImageFile userId fileType)).wp World.step
      (fun tr out l w => out = .ok () → ∃ album, l = .ofAlbum album ∧
        Edited w₀ w userId fileType files tr album) .empty w₀ := by
  refine wp_forEach (fun before tr l w => ∃ album, l = .ofAlbum album ∧
    Edited w₀ w userId fileType before tr album) ⟨[], rfl, .nil⟩ ?_ ?_
  · rintro before file after tr l w - ⟨album, rfl, hi⟩
    refine wp_mono (editImageFile_edited userId fileType file album w) ?_
    intro tr' out l' w' hout
    cases out with
    | error e => exact nofun
    | ok _ =>
      obtain ⟨album', rfl, hedited⟩ := hout rfl
      exact ⟨album ++ album', rfl, hi.append hedited⟩
  · rintro tr l w ⟨album, rfl, hi⟩ -
    exact ⟨album, rfl, hi⟩

/-- A successful media edit has replaced the lists of the stored post by the columns of an album
of its files. -/
theorem editImagePost_edited (userId : UserId) (postId : PostId) (message : String)
    (files : List File) (fileType : FileType) (s : Unit) (w : World) :
    (editImagePost userId postId message files fileType).wp World.step (fun tr out _ w' =>
      out = .ok true → ∃ d album w₁, (w.firestore .posts)[postId]? = some d ∧
        Edited w w₁ userId fileType files tr album ∧
        w' = (w₁.setDoc .posts postId (d.merge
          (editedFields userId message fileType (.ofAlbum album)))).setLoading .editPost false)
      s w := by
  unfold editImagePost
  rw [wp_withLocals, wp_bind, wp_setLoading, ends_ok, wp_tryFinally_tryCatch, wp_editMedia]
  refine ⟨nofun, fun _ => nofun, fun d hd => ?_⟩
  refine wp_mono (forEach_edited userId fileType files _) ?_
  intro tr out lists w₁ hout
  cases out with
  | error e => exact nofun
  | ok _ =>
    obtain ⟨album, rfl, hedited⟩ := hout rfl
    rw [ends_ok, wp_bind, wp_update]
    refine ⟨nofun, fun _ => nofun, fun d' hd' => ?_⟩
    obtain rfl : d = d' := by
      rw [hedited.grows.firestore] at hd'
      exact Option.some.inj (hd.symm.trans hd')
    rw [ends_ok, wp_pure, ends_ok]
    intro _
    have hstart : w.Grows (w.setLoading .editPost true) := .setLoading .refl _ _
    refine ⟨d, album, w₁, hd, ?_, rfl⟩
    have hall := (hedited.of_grows hstart).around
      [⟨.setLoading .editPost true, .ok ()⟩, ⟨.get (.byId .posts postId), .ok [⟨postId, d⟩]⟩]
      [⟨.update .posts postId (editedFields userId message fileType (.ofAlbum album)), .ok ()⟩,
        ⟨.setLoading .editPost false, .ok ()⟩] rfl rfl
    simpa using hall

end EditPostNotifier

/-- The post after an edit lists the columns of an album of the files, one entry and one name for
each, and is otherwise the post before, as every other document is. -/
structure EditedConsistently (w w' : World) (userId : UserId) (postId : PostId)
    (fileType : FileType) (files : List File) (tr : List AppEvent) : Prop where
  decoded : fileType = .image → (decodings tr).map (·.1) = files
  document : ∃ d d' album, (w.firestore .posts)[postId]? = some d ∧
    (w'.firestore .posts)[postId]? = some d' ∧
    MediaLists.ofDoc d' = some (.ofAlbum album) ∧
    album.map MediaEntry.file = listedFiles fileType files tr ∧
    (∀ e ∈ album, e.fileName = e.storageId ∧ e.StoredIn w' userId fileType.collectionName) ∧
    d'.field PostKey.createdAt = d.field PostKey.createdAt ∧
    d'.field PostKey.postSettings = d.field PostKey.postSettings
  others : ∀ (path : CollectionPath) (id : String), ¬ (path = .posts ∧ id = postId) →
    (w'.firestore path)[id]? = (w.firestore path)[id]?

/-- A successful media edit is consistent. -/
theorem editedConsistently_of_editImagePost {userId : UserId} {postId : PostId} {message : String}
    {files : List File} {fileType : FileType} {w w' : World} {tr : List AppEvent} {s : Unit}
    (h : Runs World.step w (EditPostNotifier.editImagePost userId postId message files fileType ())
      tr (.ok true, s) w') : EditedConsistently w w' userId postId fileType files tr := by
  obtain ⟨d, album, w₁, hd, hedited, rfl⟩ := wp.elim
    (EditPostNotifier.editImagePost_edited userId postId message files fileType () w) h rfl
  have hfirestore := hedited.grows.firestore
  refine ⟨hedited.decoded, ⟨d, _, album, hd, ?_,
    MediaLists.ofDoc_merge_editedFields d userId message fileType _, hedited.listed,
    fun e he => ?_, ?_, ?_⟩, fun path id hother => ?_⟩
  · rw [World.setLoading_firestore, World.setDoc_firestore, Function.update_self,
      Collection.getElem?_insert_self]
  · obtain ⟨hname, -, hstored⟩ := hedited.entries e he
    exact ⟨hname, hstored.thumbnail, hstored.original, hstored.thumbnailUrl, hstored.fileUrl⟩
  · simp +decide [EditPostNotifier.editedFields, Doc.field_merge_cons, Doc.field_set]
  · simp +decide [EditPostNotifier.editedFields, Doc.field_merge_cons, Doc.field_set]
  · rw [World.setLoading_firestore, World.setDoc_firestore, hfirestore]
    by_cases hpath : path = .posts
    · subst hpath
      rw [Function.update_self, Collection.getElem?_insert_of_ne fun hid => hother ⟨rfl, hid.symm⟩]
    · rw [Function.update_of_ne hpath]

/-- Two pictures replace the media of a post. -/
theorem editedConsistently_of_editImagePost_pictures : ∃ tr w',
    Runs World.step (World.initial.setDoc .posts "p" []) (EditPostNotifier.editImagePost "u" "p" ""
      [⟨"a.jpg"⟩, ⟨"b.jpg"⟩] .image ()) tr (.ok true, ()) w' ∧
    EditedConsistently (World.initial.setDoc .posts "p" []) w' "u" "p" .image
      [⟨"a.jpg"⟩, ⟨"b.jpg"⟩] tr := by
  have hexec : ((EditPostNotifier.editImagePost "u" "p" "" [⟨"a.jpg"⟩, ⟨"b.jpg"⟩] .image ()).exec
      World.step World.working 0 (World.initial.setDoc .posts "p" [])).any
        (fun r => r.2.1 = (.ok true, ())) = true := by
    decide +kernel
  obtain ⟨tr, out, w', hrun, hout⟩ := Program.exec_any hexec
  obtain rfl : out = (.ok true, ()) := of_decide_eq_true hout
  exact ⟨tr, w', hrun, editedConsistently_of_editImagePost hrun⟩

end TekkGram
