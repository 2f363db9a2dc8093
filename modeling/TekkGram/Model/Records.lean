import TekkGram.Model.Document
import TekkGram.Model.Media

/-!
# Payloads and decoders of the stored records

Every record is written as a payload, a document under the field names of the
app, and read back by a decoder that fails where the Dart constructor would throw.
-/

namespace TekkGram

abbrev UserId := String
abbrev PostId := String
abbrev CommentId := String
abbrev ChatGroupId := String

namespace FirebaseFieldName

def userId : String := "uid"
def postId : String := "pos_id"
def comment : String := "comment"
def createdAt : String := "created_at"
def date : String := "date"
def displayName : String := "display_name"
def email : String := "email"
def repliedUser : String := "replied_user"
def repliedUserId : String := "replied_user_id"
def phone : String := "phone"
def imageUrl : String := "imageUrl"
def sender : String := "sender"
def receiver : String := "receiver"
def message : String := "message"
def type : String := "type"

end FirebaseFieldName

namespace PostKey

def userId : String := "uid"
def message : String := "message"
def createdAt : String := "created_at"
def thumbnailUrl : String := "thumbnail_url"
def fileUrl : String := "file_url"
def fileType : String := "file_type"
def fileName : String := "file_name"
def aspectRatio : String := "aspect_ratio"
def postSettings : String := "post_settings"
def thumbnailStorageId : String := "thumbnail_storage_id"
def originalFileStorageId : String := "original_file_storage_id"

end PostKey

/-- The switches of a post. -/
inductive PostSettings where
  | allowLikes
  | allowComments
  deriving DecidableEq, Repr

/-- `PostSettings.values`, in declaration order. -/
def PostSettings.values : List PostSettings := [.allowLikes, .allowComments]

/-- The key of a setting in the stored map. -/
def PostSettings.storageKey : PostSettings → String
  | .allowLikes => "allow_likes"
  | .allowComments => "allow_comments"

/-- The setting and value of one stored entry; unknown keys and other types fail. -/
def PostSettings.ofEntry (entry : String × Scalar) : Option (PostSettings × Bool) := do
  let setting ← PostSettings.values.find? fun element => element.storageKey = entry.1
  let value ← entry.2.asBool
  return (setting, value)

/-- The stored map of the settings. -/
def PostSettings.toMap (settings : List (PostSettings × Bool)) : Value :=
  .map (settings.map fun entry => (entry.1.storageKey, .bool entry.2))

/-- The settings of a stored map. -/
def PostSettings.ofMap : Value → Option (List (PostSettings × Bool))
  | .map entries => entries.mapM PostSettings.ofEntry
  | _ => none

@[simp] theorem PostSettings.resolve_toMap (t : Timestamp)
    (settings : List (PostSettings × Bool)) :
    (PostSettings.toMap settings).resolve t = PostSettings.toMap settings := rfl

@[simp] theorem PostSettings.unresolved_toMap (settings : List (PostSettings × Bool)) :
    (PostSettings.toMap settings).unresolved = PostSettings.toMap settings := rfl

/-- Written settings are read back, in their order. -/
@[simp] theorem PostSettings.ofMap_toMap (settings : List (PostSettings × Bool)) :
    PostSettings.ofMap (PostSettings.toMap settings) = some settings := by
  induction settings with
  | nil => rfl
  | cons entry rest ih =>
    obtain ⟨setting, value⟩ := entry
    simp only [PostSettings.ofMap, PostSettings.toMap] at ih ⊢
    rw [List.map_cons, List.mapM_cons, ih]
    cases setting <;> rfl

/-- A post as the app reads it. -/
structure Post where
  postId : PostId
  userId : UserId
  message : String
  createdAt : Option Timestamp
  thumbnailUrl : List String
  fileUrl : List String
  fileType : FileType
  fileName : List String
  aspectRatio : List ℚ
  thumbnailStorageId : List String
  originalFileStorageId : List String
  postSettings : List (PostSettings × Bool)
  deriving DecidableEq, Repr

/-- The first file type with the stored name, an image if there is none. -/
def FileType.ofStored (v : Value) : FileType :=
  (FileType.values.find? fun fileType => Value.string fileType.name = v).getD .image

@[simp] theorem FileType.ofStored_name (t : FileType) : ofStored (.string t.name) = t := by
  cases t <;> decide

/-- The constructor `Post`. -/
def Post.ofJson (postId : PostId) (json : Doc) : Option Post := do
  let userId ← (json.field PostKey.userId).asString
  let message ← (json.field PostKey.message).asString
  let createdAt ← (json.field PostKey.createdAt).orElse (fun v => v.asTimestamp.map some) none
  let thumbnailUrl ← (json.field PostKey.thumbnailUrl).asListOf Scalar.asString
  let fileUrl ← (json.field PostKey.fileUrl).asListOf Scalar.asString
  let fileType := FileType.ofStored (json.field PostKey.fileType)
  let fileName ← (json.field PostKey.fileName).asListOf Scalar.asString
  let aspectRatio ← (json.field PostKey.aspectRatio).asListOf Scalar.asDouble
  let thumbnailStorageId ← (json.field PostKey.thumbnailStorageId).asListOf Scalar.asString
  let originalFileStorageId ← (json.field PostKey.originalFileStorageId).asListOf Scalar.asString
  let postSettings ← PostSettings.ofMap (json.field PostKey.postSettings)
  return { postId, userId, message, createdAt, thumbnailUrl, fileUrl, fileType, fileName,
           aspectRatio, thumbnailStorageId, originalFileStorageId, postSettings }

/-- Every field of a document casts to the corresponding field of a post. -/
structure Post.Reads (id : PostId) (d : Doc) (p : Post) : Prop where
  postId : p.postId = id
  userId : (d.field PostKey.userId).asString = some p.userId
  message : (d.field PostKey.message).asString = some p.message
  createdAt : (d.field PostKey.createdAt).orElse (fun v => v.asTimestamp.map some) none =
    some p.createdAt
  thumbnailUrl : (d.field PostKey.thumbnailUrl).asListOf Scalar.asString = some p.thumbnailUrl
  fileUrl : (d.field PostKey.fileUrl).asListOf Scalar.asString = some p.fileUrl
  fileType : FileType.ofStored (d.field PostKey.fileType) = p.fileType
  fileName : (d.field PostKey.fileName).asListOf Scalar.asString = some p.fileName
  aspectRatio : (d.field PostKey.aspectRatio).asListOf Scalar.asDouble = some p.aspectRatio
  thumbnailStorageId : (d.field PostKey.thumbnailStorageId).asListOf Scalar.asString =
    some p.thumbnailStorageId
  originalFileStorageId : (d.field PostKey.originalFileStorageId).asListOf Scalar.asString =
    some p.originalFileStorageId
  postSettings : PostSettings.ofMap (d.field PostKey.postSettings) = some p.postSettings

/-- Decoding succeeds exactly when every field casts, and then reads the cast fields. -/
theorem Post.ofJson_eq_some_iff {id : PostId} {d : Doc} {p : Post} :
    Post.ofJson id d = some p ↔ p.Reads id d := by
  constructor
  · intro h
    simp only [Post.ofJson, Option.bind_eq_bind, Option.pure_def, Option.bind_eq_some_iff,
      Option.some.injEq] at h
    obtain ⟨_, h₁, _, h₂, _, h₃, _, h₄, _, h₅, _, h₆, _, h₇, _, h₈, _, h₉, _, h₁₀, rfl⟩ := h
    exact ⟨rfl, h₁, h₂, h₃, h₄, h₅, rfl, h₆, h₇, h₈, h₉, h₁₀⟩
  · rintro ⟨rfl, h₁, h₂, h₃, h₄, h₅, h₆, h₇, h₈, h₉, h₁₀, h₁₁⟩
    simp only [Post.ofJson, h₁, h₂, h₃, h₄, h₅, h₆, h₇, h₈, h₉, h₁₀, h₁₁, Option.bind_eq_bind,
      Option.bind_some, Option.pure_def]

/-- The payload of a new post. -/
def postPayload (userId : UserId) (message : String) (thumbnailUrl fileUrl : List String)
    (fileType : FileType) (fileName : List String) (aspectRatio : List ℚ)
    (postSettings : List (PostSettings × Bool))
    (thumbnailStorageId originalFileStorageId : List String)
    (createdAt : Option FieldValue) : Doc :=
  [(PostKey.userId, .string userId),
   (PostKey.message, .string message),
   (PostKey.createdAt, .scalar (.fieldValue (createdAt.getD .serverTimestamp))),
   (PostKey.thumbnailUrl, .strings thumbnailUrl),
   (PostKey.fileUrl, .strings fileUrl),
   (PostKey.fileType, .string fileType.name),
   (PostKey.fileName, .strings fileName),
   (PostKey.aspectRatio, .doubles aspectRatio),
   (PostKey.thumbnailStorageId, .strings thumbnailStorageId),
   (PostKey.originalFileStorageId, .strings originalFileStorageId),
   (PostKey.postSettings, PostSettings.toMap postSettings)]

/-- A committed post payload decodes to the values it was built from. -/
theorem Post.ofJson_postPayload (id : PostId) (t : Timestamp) (userId : UserId)
    (message : String) (thumbnailUrl fileUrl : List String) (fileType : FileType)
    (fileName : List String) (aspectRatio : List ℚ) (postSettings : List (PostSettings × Bool))
    (thumbnailStorageId originalFileStorageId : List String) (createdAt : Option FieldValue) :
    Post.ofJson id ((postPayload userId message thumbnailUrl fileUrl fileType fileName aspectRatio
      postSettings thumbnailStorageId originalFileStorageId createdAt).resolve t) =
    some ⟨id, userId, message, some t, thumbnailUrl, fileUrl, fileType, fileName, aspectRatio,
      thumbnailStorageId, originalFileStorageId, postSettings⟩ := by
  rw [Post.ofJson_eq_some_iff]
  refine ⟨rfl, rfl, rfl, ?_, Value.asListOf_strings _, Value.asListOf_strings _,
    FileType.ofStored_name _, Value.asListOf_strings _, Value.asListOf_doubles _,
    Value.asListOf_strings _, Value.asListOf_strings _, PostSettings.ofMap_toMap _⟩
  cases createdAt with
  | none => rfl
  | some v => cases v; rfl

/-- Merging a message keeps every other field of the decoded post. -/
theorem Post.ofJson_merge_message {id : PostId} {d : Doc} {p : Post} (h : Post.ofJson id d = some p)
    (message : String) :
    Post.ofJson id (d.merge [(PostKey.message, .string message)]) =
      some { p with message := message } := by
  rw [Post.ofJson_eq_some_iff] at h ⊢
  constructor <;>
    simp +decide only [Doc.field_merge_cons, Doc.field_merge_nil, Doc.field_set, ite_true,
      ite_false, h.postId, h.userId, h.createdAt, h.thumbnailUrl, h.fileUrl, h.fileType,
      h.fileName, h.aspectRatio, h.thumbnailStorageId, h.originalFileStorageId, h.postSettings,
      Value.asString_string]

/-- A comment as the app reads it. -/
structure Comment where
  id : CommentId
  comment : String
  createdAt : Timestamp
  fromUserId : UserId
  onPostId : PostId
  repliedUserName : String
  repliedUserId : UserId
  deriving DecidableEq, Repr

/-- The constructor `Comment`. -/
def Comment.ofJson (json : Doc) (id : CommentId) : Option Comment := do
  let comment ← (json.field FirebaseFieldName.comment).asString
  let createdAt ← (json.field FirebaseFieldName.createdAt).asTimestamp
  let fromUserId ← (json.field FirebaseFieldName.userId).asString
  let repliedUserName ← (json.field FirebaseFieldName.repliedUser).orElse Value.asString ""
  let repliedUserId ← (json.field FirebaseFieldName.repliedUserId).orElse Value.asString ""
  let onPostId ← (json.field FirebaseFieldName.postId).asString
  return { id, comment, createdAt, fromUserId, onPostId, repliedUserName, repliedUserId }

/-- The payload of a new comment. -/
def commentPayload (fromUserId : UserId) (onPostId : PostId) (comment repliedUserName : String)
    (repliedUserId : UserId) : Doc :=
  [(FirebaseFieldName.userId, .string fromUserId),
   (FirebaseFieldName.postId, .string onPostId),
   (FirebaseFieldName.comment, .string comment),
   (FirebaseFieldName.repliedUser, .string repliedUserName),
   (FirebaseFieldName.repliedUserId, .string repliedUserId),
   (FirebaseFieldName.createdAt, .scalar (.fieldValue .serverTimestamp))]

/-- A clock reading: its instant, and its rendering in the device's time zone. -/
structure DateTime where
  millisecondsSinceEpoch : Int
  toIso8601String : String
  deriving DecidableEq, Repr

/-- The document of a like. -/
def like (postId : PostId) (likedBy : UserId) (date : DateTime) : Doc :=
  [(FirebaseFieldName.postId, .string postId),
   (FirebaseFieldName.userId, .string likedBy),
   (FirebaseFieldName.date, .string date.toIso8601String)]

/-- A chat message as the app reads it. -/
structure ChatModel where
  sender : String
  receiver : String
  message : String
  type : String
  createdAt : Timestamp
  fileName : List String
  aspectRatio : List ℚ
  thumbnailStorageId : List String
  originalFileStorageId : List String
  thumbnailUrl : List String
  fileUrl : List String
  deriving DecidableEq, Repr

/-- The constructor `ChatModel`. -/
def ChatModel.ofJson (json : Doc) : Option ChatModel := do
  let strings := fun key => (json.field key).orElse (Value.asListOf Scalar.asString) []
  let sender ← (json.field FirebaseFieldName.sender).asString
  let receiver ← (json.field FirebaseFieldName.receiver).asString
  let message ← (json.field FirebaseFieldName.message).asString
  let type ← (json.field FirebaseFieldName.type).asString
  let createdAt ← (json.field FirebaseFieldName.createdAt).asTimestamp
  let thumbnailUrl ← strings PostKey.thumbnailUrl
  let fileUrl ← strings PostKey.fileUrl
  let fileName ← strings PostKey.fileName
  let aspectRatio ← (json.field PostKey.aspectRatio).orElse (Value.asListOf Scalar.asDouble) []
  let thumbnailStorageId ← strings PostKey.thumbnailStorageId
  let originalFileStorageId ← strings PostKey.originalFileStorageId
  return { sender, receiver, message, type, createdAt, fileName, aspectRatio,
           thumbnailStorageId, originalFileStorageId, thumbnailUrl, fileUrl }

/-- The payload of a chat message; omitted lists are stored empty. -/
def chatPayload (sender receiver message type : String) (createdAt : FieldValue)
    (thumbnailUrl fileUrl thumbnailStorageId originalFileStorageId : Option (List String))
    (aspectRatio : Option (List ℚ)) (fileName : Option (List String)) : Doc :=
  [(FirebaseFieldName.sender, .string sender),
   (FirebaseFieldName.receiver, .string receiver),
   (FirebaseFieldName.message, .string message),
   (FirebaseFieldName.type, .string type),
   (PostKey.createdAt, .scalar (.fieldValue createdAt)),
   (PostKey.thumbnailStorageId, .strings (thumbnailStorageId.getD [])),
   (PostKey.originalFileStorageId, .strings (originalFileStorageId.getD [])),
   (PostKey.fileName, .strings (fileName.getD [])),
   (PostKey.aspectRatio, .doubles (aspectRatio.getD [])),
   (PostKey.thumbnailUrl, .strings (thumbnailUrl.getD [])),
   (PostKey.fileUrl, .strings (fileUrl.getD []))]

/-- A profile as the app reads it. -/
structure UserInfoModel where
  userId : UserId
  displayName : String
  email : Option String
  phone : Option String
  imageUrl : Option String
  deriving DecidableEq, Repr

/-- The payload of a new profile. -/
def userInfoPayload (userId : UserId) (displayName email phone imageUrl : Option String) : Doc :=
  [(FirebaseFieldName.userId, .string userId),
   (FirebaseFieldName.displayName, .string (displayName.getD "")),
   (FirebaseFieldName.email, .string (email.getD "")),
   (FirebaseFieldName.phone, .string (phone.getD "")),
   (FirebaseFieldName.imageUrl, .string (imageUrl.getD ""))]

/-- The constructor `UserInfoModel.fromJson`. -/
def UserInfoModel.fromJson (json : Doc) (userId : UserId) : Option UserInfoModel := do
  let nullable := fun key => (json.field key).orElse (fun v => v.asString.map some) none
  let displayName ← (json.field FirebaseFieldName.displayName).orElse Value.asString ""
  let email ← nullable FirebaseFieldName.email
  let phone ← nullable FirebaseFieldName.phone
  let imageUrl ← nullable FirebaseFieldName.imageUrl
  return { userId, displayName, email, phone, imageUrl }

/-- A document whose fields are strings is read with these. -/
theorem UserInfoModel.fromJson_of_strings {d : Doc} {displayName email phone imageUrl : String}
    (userId : UserId) (hname : d.field FirebaseFieldName.displayName = .string displayName)
    (hemail : d.field FirebaseFieldName.email = .string email)
    (hphone : d.field FirebaseFieldName.phone = .string phone)
    (himage : d.field FirebaseFieldName.imageUrl = .string imageUrl) :
    fromJson d userId = some ⟨userId, displayName, some email, some phone, some imageUrl⟩ := by
  simp only [fromJson, hname, hemail, hphone, himage]
  rfl

end TekkGram
