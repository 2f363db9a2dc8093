import TekkGram.Notifiers.ChatMessage
import TekkGram.Notifiers.EditPost
import TekkGram.Notifiers.ImageUpload

/-!
# Operations that list several files

Three operations loop over files and then write one document with the six lists. The
document holds exactly the lists that the loop gathered.
-/

namespace TekkGram

open Interaction Async

/-- The operations on several files with their arguments. -/
inductive MediaOperation where
  | uploadMultipleImageFiles (files : List File) (message : Option String)
      (postSettings : Option (List (PostSettings × Bool))) (fileType : FileType)
      (userId : UserId)
  | sendMessage (groupChatId currentUserId receiverId message : String) (files : List File)
  | editImagePost (userId : UserId) (postId : PostId) (message : String) (files : List File)
      (fileType : FileType)

namespace MediaOperation

/-- The files that the user chose. -/
def files : MediaOperation → List File
  | uploadMultipleImageFiles files _ _ _ _ => files
  | sendMessage _ _ _ _ files => files
  | editImagePost _ _ _ files _ => files

/-- The user under whom the media are stored. -/
def userId : MediaOperation → UserId
  | uploadMultipleImageFiles _ _ _ _ userId => userId
  | sendMessage _ currentUserId _ _ _ => currentUserId
  | editImagePost userId _ _ _ _ => userId

/-- The folder of the originals. -/
def folder : MediaOperation → String
  | uploadMultipleImageFiles _ _ _ fileType _ => fileType.collectionName
  | sendMessage .. => chatFolder
  | editImagePost _ _ _ _ fileType => fileType.collectionName

/-- The program of an operation. -/
def program : MediaOperation → Program (Fallible Exc Ans) (Except Exc Bool × Unit)
  | uploadMultipleImageFiles files message postSettings fileType userId =>
    ImageUploadNotifier.uploadMultipleImageFiles files message postSettings fileType userId ()
  | sendMessage groupChatId currentUserId receiverId message files =>
    ChatMessageNotifier.sendMessage groupChatId currentUserId receiverId message files ()
  | editImagePost userId postId message files fileType =>
    EditPostNotifier.editImagePost userId postId message files fileType ()

end MediaOperation

/-- The six lists of a stored document. -/
def MediaLists.ofDoc (d : Doc) : Option MediaLists := do
  let thumbnailStorageIdList ← (d.field PostKey.thumbnailStorageId).asListOf Scalar.asString
  let originalStorageIdList ← (d.field PostKey.originalFileStorageId).asListOf Scalar.asString
  let fileNameList ← (d.field PostKey.fileName).asListOf Scalar.asString
  let thumbnailAspectRatioList ← (d.field PostKey.aspectRatio).asListOf Scalar.asDouble
  let thumbnailUrlList ← (d.field PostKey.thumbnailUrl).asListOf Scalar.asString
  let originalUrlList ← (d.field PostKey.fileUrl).asListOf Scalar.asString
  return { thumbnailStorageIdList, originalStorageIdList, fileNameList, thumbnailAspectRatioList,
           thumbnailUrlList, originalUrlList }

/-- A document whose six fields are written lists holds these lists. -/
theorem MediaLists.ofDoc_of_fields {d : Doc} {l : MediaLists}
    (hthumbnailIds : d.field PostKey.thumbnailStorageId = .strings l.thumbnailStorageIdList)
    (horiginalIds : d.field PostKey.originalFileStorageId = .strings l.originalStorageIdList)
    (hnames : d.field PostKey.fileName = .strings l.fileNameList)
    (hratios : d.field PostKey.aspectRatio = .doubles l.thumbnailAspectRatioList)
    (hthumbnailUrls : d.field PostKey.thumbnailUrl = .strings l.thumbnailUrlList)
    (hurls : d.field PostKey.fileUrl = .strings l.originalUrlList) : ofDoc d = some l := by
  simp [ofDoc, hthumbnailIds, horiginalIds, hnames, hratios, hthumbnailUrls, hurls]

theorem MediaLists.ofDoc_multiplePayload (t : Timestamp) (userId : UserId)
    (message : Option String) (fileType : FileType) (settings : List (PostSettings × Bool))
    (l : MediaLists) :
    ofDoc ((ImageUploadNotifier.multiplePayload userId message fileType settings l).resolve t) =
      some l :=
  ofDoc_of_fields rfl rfl rfl rfl rfl rfl

theorem MediaLists.ofDoc_merge_editedFields (d : Doc) (userId : UserId) (message : String)
    (fileType : FileType) (l : MediaLists) :
    ofDoc (d.merge (EditPostNotifier.editedFields userId message fileType l)) = some l := by
  apply ofDoc_of_fields <;>
    simp +decide only [EditPostNotifier.editedFields, Doc.field_merge_cons, Doc.field_merge_nil,
      Doc.field_set, ite_true, ite_false]

theorem MediaLists.ofDoc_messagePayload (t : Timestamp) (sender receiver message : String)
    {files : List File} {l : MediaLists} (hempty : files = [] → l = .empty) :
    ofDoc ((ChatMessageNotifier.messagePayload sender receiver message files l).resolve t) =
      some l := by
  unfold ChatMessageNotifier.messagePayload
  by_cases hfiles : files = []
  · rw [if_pos hfiles, hempty hfiles]
    exact ofDoc_of_fields rfl rfl rfl rfl rfl rfl
  · rw [if_neg hfiles]
    exact ofDoc_of_fields rfl rfl rfl rfl rfl rfl

/-- What a run did: it wrote one document with lists gathered from the files. -/
structure Listed (op : MediaOperation) (w w' : World) (tr : List AppEvent) (path : CollectionPath)
    (id : String) (d : Doc) (l : MediaLists) (w₁ : World) : Prop where
  gathered : Gathered w w₁ op.userId op.folder op.files tr l
  stored : (w'.firestore path)[id]? = some d
  lists : MediaLists.ofDoc d = some l
  storage : w'.storage = w₁.storage
  urls : w'.urls = w₁.urls
  writes : ∀ path' id', Returned (Writes path' id') tr ↔ path' = path ∧ id' = id

/-- A run returns `false` and writes no document, or `true` and has written one with the lists
it gathered. -/
theorem MediaOperation.run_cases {op : MediaOperation} {w w' : World} {tr : List AppEvent}
    {out : Except Exc Bool} {s : Unit} (h : Runs World.step w op.program tr (out, s) w') :
    (out = .ok false ∧ ∀ path id, ¬ Returned (Writes path id) tr) ∨
      (out = .ok true ∧ ∃ path id d l w₁, Listed op w w' tr path id d l w₁) := by
  cases op with
  | uploadMultipleImageFiles files message postSettings fileType userId =>
    rcases wp.elim (ImageUploadNotifier.uploadMultipleImageFiles_spec files message postSettings
      fileType userId () w) h with ⟨hout, -, hwrites⟩ |
        ⟨l, settings, id, t, w₁, hout, -, hgathered, -, rfl, hwrites⟩
    · exact .inl ⟨hout, hwrites⟩
    · refine .inr ⟨hout, .posts, id, _, l, w₁, hgathered, ?_,
        MediaLists.ofDoc_multiplePayload t userId message fileType settings l, rfl, rfl, hwrites⟩
      rw [World.setLoading_firestore, World.setDoc_firestore, Function.update_self,
        Collection.getElem?_insert_self]
  | sendMessage groupChatId currentUserId receiverId message files =>
    rcases wp.elim (ChatMessageNotifier.sendMessage_spec groupChatId currentUserId receiverId
      message files () w) h with ⟨hout, -, hwrites⟩ |
        ⟨l, now, t, w₁, hout, hgathered, hempty, rfl, hwrites⟩
    · exact .inl ⟨hout, hwrites⟩
    · refine .inr ⟨hout, .chat groupChatId, _, _, l, w₁, hgathered, ?_,
        MediaLists.ofDoc_messagePayload t currentUserId receiverId message hempty, rfl, rfl,
        hwrites⟩
      rw [World.setLoading_firestore, World.setDoc_firestore, Function.update_self,
        Collection.getElem?_insert_self]
  | editImagePost userId postId message files fileType =>
    rcases wp.elim (EditPostNotifier.editImagePost_spec userId postId message files fileType () w) h
      with ⟨hout, -, hwrites⟩ | ⟨d, l, w₁, hout, -, hgathered, rfl, hwrites⟩
    · exact .inl ⟨hout, hwrites⟩
    · refine .inr ⟨hout, .posts, postId, _, l, w₁, hgathered, ?_,
        MediaLists.ofDoc_merge_editedFields d userId message fileType l, rfl, rfl, hwrites⟩
      rw [World.setLoading_firestore, World.setDoc_firestore, Function.update_self,
        Collection.getElem?_insert_self]

end TekkGram
