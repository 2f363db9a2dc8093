import TekkGram.Interaction.Session
import TekkGram.Notifiers.DeletePost
import TekkGram.Notifiers.EditPost
import TekkGram.Notifiers.ImageUpload

/-!
# Operations on posts

The operations that write or delete posts, and what each of them does to the posts
collection and the media: it adds or replaces one post with freshly stored media, changes
the message of a post, deletes a post, or leaves the posts as they are.
-/

namespace TekkGram

open Interaction Async

/-- The operations on posts with their arguments. -/
inductive PostOperation where
  | upload (file : File) (fileType : FileType) (message : Option String)
      (postSettings : Option (List (PostSettings × Bool))) (userId : UserId)
      (userData : Option UserInfoModel)
  | uploadMultipleImageFiles (files : List File) (message : Option String)
      (postSettings : Option (List (PostSettings × Bool))) (fileType : FileType)
      (userId : UserId)
  | editPost (postId : PostId) (message : String)
  | editImagePost (userId : UserId) (postId : PostId) (message : String) (files : List File)
      (fileType : FileType)
  | deletePost (post : Post)

/-- The body of an operation. -/
def PostOperation.body : PostOperation → Action Unit Bool
  | .upload file fileType message postSettings userId userData =>
    ImageUploadNotifier.upload file fileType message postSettings userId userData
  | .uploadMultipleImageFiles files message postSettings fileType userId =>
    ImageUploadNotifier.uploadMultipleImageFiles files message postSettings fileType userId
  | .editPost postId message => EditPostNotifier.editPost postId message
  | .editImagePost userId postId message files fileType =>
    EditPostNotifier.editImagePost userId postId message files fileType
  | .deletePost post => DeletePostStateNotifier.deletePost post

/-- The program of an operation. -/
def PostOperation.program (op : PostOperation) :
    Program (Fallible Exc Ans) (Except Exc Bool × Unit) := op.body ()

/-- A completed operation of a session. -/
abbrev PostStep := Completed World PostOperation (Fallible Exc Ans) (Except Exc Bool × Unit)

/-- A single upload that is not a profile picture. -/
def PostOperation.Posts : PostOperation → Prop
  | .upload _ fileType _ _ _ _ => fileType ≠ .userImage
  | _ => True

/-- A post whose media lists are those a loop gathered. -/
def Post.withMedia (p : Post) (userId : UserId) (message : String) (fileType : FileType)
    (lists : MediaLists) : Post :=
  { p with
    userId := userId
    message := message
    fileType := fileType
    thumbnailUrl := lists.thumbnailUrlList
    fileUrl := lists.originalUrlList
    fileName := lists.fileNameList
    aspectRatio := lists.thumbnailAspectRatioList
    thumbnailStorageId := lists.thumbnailStorageIdList
    originalFileStorageId := lists.originalStorageIdList }

/-- Merging the edited fields replaces the media of the decoded post. -/
theorem Post.ofJson_merge_editedFields {id : PostId} {d : Doc} {p : Post}
    (h : Post.ofJson id d = some p) (userId : UserId) (message : String) (fileType : FileType)
    (lists : MediaLists) :
    Post.ofJson id (d.merge (EditPostNotifier.editedFields userId message fileType lists)) =
      some (p.withMedia userId message fileType lists) := by
  rw [Post.ofJson_eq_some_iff] at h ⊢
  constructor <;>
    simp +decide only [EditPostNotifier.editedFields, Post.withMedia, Doc.field_merge_cons,
      Doc.field_merge_nil, Doc.field_set, ite_true, ite_false, h.postId, h.createdAt,
      h.postSettings, Value.asString_string, Value.asListOf_strings, Value.asListOf_doubles,
      FileType.ofStored_name]

/-- Every stored post decodes. -/
def Decodes (w : World) : Prop :=
  ∀ (id : PostId) (d : Doc), (w.firestore .posts)[id]? = some d → ∃ p, Post.ofJson id d = some p

/-- No object of a drawn name changed. -/
structure World.KeepsMedia (w w' : World) : Prop where
  uuids : w.uuids ⊆ w'.uuids
  kept : ∀ ref : Reference, ref.name ∈ w.uuids → w'.storage ref = w.storage ref

theorem World.Grows.keepsMedia {w w' : World} (h : w.Grows w') : w.KeepsMedia w' :=
  ⟨h.uuids, h.kept⟩

/-- The lists that the readers of a post take the first element of. -/
structure Post.Readable (p : Post) : Prop where
  thumbnailUrl : p.thumbnailUrl ≠ []
  fileUrl : p.fileUrl ≠ []
  aspectRatio : p.aspectRatio ≠ []

/-- An upload or edit of several files that wrote its post obtained the URL of an original. -/
def PostOperation.StoredOne (op : PostOperation) (tr : List AppEvent) : Prop :=
  match op with
  | .uploadMultipleImageFiles .. => (∃ id, Returned (Writes .posts id) tr) →
      Returned FetchedOriginal tr
  | .editImagePost .. => (∃ id, Returned (Writes .posts id) tr) → Returned FetchedOriginal tr
  | _ => True

/-- What an operation other than a deletion does to the posts. -/
inductive PostEffect (w w' : World) (storedOne : Prop) : Prop
  | kept (hposts : w'.firestore .posts = w.firestore .posts) (hmedia : w.KeepsMedia w')
      (hstored : storedOne)
  | stored (p : Post) (d : Doc) (hdecode : Post.ofJson p.postId d = some p)
      (hposts : w'.firestore .posts = (w.firestore .posts).insert p.postId d)
      (hmedia : w.KeepsMedia w') (hfresh : ∀ ref ∈ p.media, FreshObject w w' ref)
      (hreadable : p.Readable ↔ storedOne)
  | reworded (p : Post) (d₀ d : Doc) (message : String)
      (hbefore : (w.firestore .posts)[p.postId]? = some d₀)
      (hdecode₀ : Post.ofJson p.postId d₀ = some p)
      (hdecode : Post.ofJson p.postId d = some { p with message := message })
      (hposts : w'.firestore .posts = (w.firestore .posts).insert p.postId d)
      (hmedia : w.KeepsMedia w') (hstored : storedOne)

/-- The media of a post with gathered lists are fresh objects. -/
theorem Gathered.media_fresh {w w₁ : World} {userId : UserId} {fileType : FileType}
    {files : List File} {tr : List AppEvent} {lists : MediaLists}
    (h : Gathered w w₁ userId fileType.collectionName files tr lists) (p : Post)
    (message : String) :
    ∀ ref ∈ (p.withMedia userId message fileType lists).media, FreshObject w w₁ ref := by
  intro ref href
  rcases List.mem_append.mp href with href | href
  · obtain ⟨id, hid, rfl⟩ := List.mem_map.mp href
    exact h.thumbnailIds id hid
  · obtain ⟨id, hid, rfl⟩ := List.mem_map.mp href
    exact h.originalIds id hid

/-- Gathered lists make a readable post exactly when the URL of an original was fetched. -/
theorem Gathered.readable_iff {w w₁ : World} {userId : UserId} {folder : String}
    {files : List File} {tr : List AppEvent} {lists : MediaLists}
    (h : Gathered w w₁ userId folder files tr lists) (p : Post) (message : String)
    (fileType : FileType) :
    (p.withMedia userId message fileType lists).Readable ↔ Returned FetchedOriginal tr := by
  refine ⟨fun hreadable => h.fetched.mpr hreadable.fileUrl, fun hfetched => ?_⟩
  have horiginals := List.length_pos_iff.mpr (h.fetched.mp hfetched)
  have hurls := h.urls_le
  have hratios := h.ratios_le
  refine ⟨?_, ?_, ?_⟩ <;> refine List.length_pos_iff.mp ?_ <;> simp only [Post.withMedia] <;> omega

section Effects

variable {w w' : World} {tr : List AppEvent} {out : Except Exc Bool × Unit}

/-- The post that a new document of this payload decodes to. -/
def newPost (id : PostId) (t : Timestamp) (userId : UserId) (message : Option String)
    (fileType : FileType) (settings : List (PostSettings × Bool)) (lists : MediaLists) : Post :=
  ⟨id, userId, message.getD "", some t, lists.thumbnailUrlList, lists.originalUrlList, fileType,
    lists.fileNameList, lists.thumbnailAspectRatioList, lists.thumbnailStorageIdList,
    lists.originalStorageIdList, settings⟩

theorem ofJson_multiplePayload (id : PostId) (t : Timestamp) (userId : UserId)
    (message : Option String) (fileType : FileType) (settings : List (PostSettings × Bool))
    (lists : MediaLists) :
    Post.ofJson id ((ImageUploadNotifier.multiplePayload userId message fileType settings
      lists).resolve t) = some (newPost id t userId message fileType settings lists) :=
  Post.ofJson_postPayload ..

theorem PostEffect.of_grows {storedOne : Prop} (h : w.Grows w') (hstored : storedOne) :
    PostEffect w w' storedOne :=
  .kept (by rw [h.firestore]) h.keepsMedia hstored

/-- A single upload adds a readable post with fresh media, or nothing. -/
theorem upload_effect {file : File} {fileType : FileType} {message : Option String}
    {postSettings : Option (List (PostSettings × Bool))} {userId : UserId}
    {userData : Option UserInfoModel} (hfileType : fileType ≠ .userImage)
    (h : Runs World.step w (ImageUploadNotifier.upload file fileType message postSettings userId
      userData ()) tr out w') : PostEffect w w' True := by
  rcases wp.elim (ImageUploadNotifier.upload_spec file hfileType message postSettings userId
    userData () w) h with hgrows | ⟨fileName, ratio, thumbUrl, orgUrl, settings, id, t, w₁, -,
      hgrows, hthumbnail, horiginal, -, rfl⟩
  · exact .of_grows hgrows trivial
  · refine .stored (newPost id t userId message fileType settings
      (ImageUploadNotifier.singleLists fileName ratio thumbUrl orgUrl)) _
      (ofJson_multiplePayload ..) ?_ ⟨hgrows.uuids, hgrows.kept⟩ ?_ ?_
    · simp only [World.setLoading_firestore, World.setDoc_firestore, Function.update_self,
        hgrows.firestore]
      rfl
    · intro ref href
      simp only [Post.media, newPost, ImageUploadNotifier.singleLists, List.map_singleton,
        List.mem_append, List.mem_singleton] at href
      rcases href with rfl | rfl
      · exact ⟨hthumbnail.fresh, hthumbnail.drawn, hthumbnail.exist⟩
      · exact ⟨horiginal.fresh, horiginal.drawn, horiginal.exist⟩
    · exact iff_of_true ⟨List.cons_ne_nil _ _, List.cons_ne_nil _ _, List.cons_ne_nil _ _⟩ trivial

/-- The upload of several files adds a post with fresh media, or nothing. -/
theorem uploadMultipleImageFiles_effect {files : List File} {message : Option String}
    {postSettings : Option (List (PostSettings × Bool))} {fileType : FileType} {userId : UserId}
    (h : Runs World.step w (ImageUploadNotifier.uploadMultipleImageFiles files message
      postSettings fileType userId ()) tr out w') :
    PostEffect w w' ((∃ id, Returned (Writes .posts id) tr) → Returned FetchedOriginal tr) := by
  rcases wp.elim (ImageUploadNotifier.uploadMultipleImageFiles_spec files message postSettings
    fileType userId () w) h with ⟨-, hgrows, hwrites⟩ | ⟨lists, settings, id, t, w₁, -, -,
      hgathered, -, rfl, hwrites⟩
  · exact .of_grows hgrows fun ⟨id, hid⟩ => absurd hid (hwrites .posts id)
  · have hgrows := hgathered.grows
    refine .stored (newPost id t userId message fileType settings lists) _
      (ofJson_multiplePayload ..) ?_ ⟨hgrows.uuids, hgrows.kept⟩ ?_ ?_
    · simp only [World.setLoading_firestore, World.setDoc_firestore, Function.update_self,
        hgrows.firestore]
      rfl
    · intro ref href
      have hfresh := hgathered.media_fresh (newPost id t userId message fileType settings lists)
        (message.getD "") ref href
      exact ⟨hfresh.fresh, hfresh.drawn, hfresh.exist⟩
    · have hreadable := hgathered.readable_iff (newPost id t userId message fileType settings lists)
        (message.getD "") fileType
      exact hreadable.trans ⟨fun hfetched _ => hfetched,
        fun hstored => hstored ⟨id, (hwrites _ _).mpr ⟨rfl, rfl⟩⟩⟩

/-- The edit of a message rewords one post, or changes nothing. -/
theorem editPost_effect {postId : PostId} {message : String} (hdecodes : Decodes w)
    (h : Runs World.step w (EditPostNotifier.editPost postId message ()) tr out w') :
    PostEffect w w' True := by
  rcases wp.elim (EditPostNotifier.editPost_spec postId message () w) h with hgrows |
    ⟨d, w₁, hd, hgrows, rfl⟩
  · exact .of_grows hgrows trivial
  · obtain ⟨p, hp⟩ := hdecodes postId d hd
    obtain rfl : p.postId = postId := (Post.ofJson_eq_some_iff.mp hp).postId
    refine .reworded p d _ message hd hp (Post.ofJson_merge_message hp message) ?_
      ⟨hgrows.uuids, hgrows.kept⟩ trivial
    simp only [World.setLoading_firestore, World.setDoc_firestore, Function.update_self,
      hgrows.firestore]
    rfl

/-- The edit of the media replaces those of one post by fresh ones, or changes nothing. -/
theorem editImagePost_effect {userId : UserId} {postId : PostId} {message : String}
    {files : List File} {fileType : FileType} (hdecodes : Decodes w)
    (h : Runs World.step w (EditPostNotifier.editImagePost userId postId message files fileType
      ()) tr out w') :
    PostEffect w w' ((∃ id, Returned (Writes .posts id) tr) → Returned FetchedOriginal tr) := by
  rcases wp.elim (EditPostNotifier.editImagePost_spec userId postId message files fileType () w) h
    with ⟨-, hgrows, hwrites⟩ | ⟨d, lists, w₁, -, hd, hgathered, rfl, hwrites⟩
  · exact .of_grows hgrows fun ⟨id, hid⟩ => absurd hid (hwrites .posts id)
  · obtain ⟨p, hp⟩ := hdecodes postId d hd
    obtain rfl : p.postId = postId := (Post.ofJson_eq_some_iff.mp hp).postId
    have hgrows := hgathered.grows
    refine .stored (p.withMedia userId message fileType lists) _
      (Post.ofJson_merge_editedFields hp userId message fileType lists) ?_
      ⟨hgrows.uuids, hgrows.kept⟩ ?_ ?_
    · simp only [World.setLoading_firestore, World.setDoc_firestore, Function.update_self,
        hgrows.firestore]
      rfl
    · intro ref href
      have hfresh := hgathered.media_fresh p message ref href
      exact ⟨hfresh.fresh, hfresh.drawn, hfresh.exist⟩
    · exact (hgathered.readable_iff p message fileType).trans ⟨fun hfetched _ => hfetched,
        fun hstored => hstored ⟨p.postId, (hwrites _ _).mpr ⟨rfl, rfl⟩⟩⟩

/-- What an operation other than a deletion does to the posts. -/
theorem PostOperation.effect {op : PostOperation} (hposts : op.Posts)
    (hdelete : ∀ post, op ≠ .deletePost post) (hdecodes : Decodes w)
    (h : Runs World.step w op.program tr out w') : PostEffect w w' (op.StoredOne tr) := by
  cases op with
  | upload => exact upload_effect hposts h
  | uploadMultipleImageFiles => exact uploadMultipleImageFiles_effect h
  | editPost => exact editPost_effect hdecodes h
  | editImagePost => exact editImagePost_effect hdecodes h
  | deletePost post => exact absurd rfl (hdelete post)

/-- After an operation every post still decodes. -/
theorem PostEffect.decodes {storedOne : Prop} (h : PostEffect w w' storedOne)
    (hdecodes : Decodes w) : Decodes w' := by
  have hinsert : ∀ {postId : PostId} {p : Post} {d : Doc}, Post.ofJson postId d = some p →
      w'.firestore .posts = (w.firestore .posts).insert postId d → Decodes w' := by
    intro postId p d hdecode hposts id d' hd'
    rw [hposts, Collection.getElem?_insert] at hd'
    by_cases hid : postId = id
    · rw [if_pos hid] at hd'
      obtain rfl := Option.some.inj hd'
      exact ⟨p, hid ▸ hdecode⟩
    · rw [if_neg hid] at hd'
      exact hdecodes id d' hd'
  cases h with
  | kept hposts _ _ =>
    intro id d hd
    rw [hposts] at hd
    exact hdecodes id d hd
  | stored p d hdecode hposts _ _ _ => exact hinsert hdecode hposts
  | reworded p d₀ d message _ _ hdecode hposts _ _ => exact hinsert hdecode hposts

end Effects

end TekkGram
