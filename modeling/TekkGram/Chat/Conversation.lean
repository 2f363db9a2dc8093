import TekkGram.Chat.GroupChatId
import TekkGram.Feeds.Lists
import TekkGram.Records.Stored
import TekkGram.Users.SavedProfile

/-!
# Conversations

The chat screen sends a message to the conversation of its sender and its receiver, and shows the
messages of that conversation. Two users see the same messages, which are those between the two,
and each message is on the side of its sender.
-/

namespace TekkGram

open Interaction Async

/-- The messages of a conversation. -/
def Query.chatMessages (groupChatId : ChatGroupId) : Query := { collection := .chat groupChatId }

/-- The message of a document of a snapshot. -/
def QueryDocumentSnapshot.chatMessage (doc : QueryDocumentSnapshot) : Option ChatModel :=
  ChatModel.ofJson doc.data

/-- What `chatMessageProvider` emits for a snapshot. -/
def chatMessages (docs : List QueryDocumentSnapshot) : Lazy.Sequence ChatModel :=
  .mapped ((docs.filter fun doc => !doc.hasPendingWrites).map QueryDocumentSnapshot.chatMessage)

namespace ChatMessageScreen

/-- `_submitMessageWithController` on the screen of a user; nothing is sent without a login. -/
def submitMessage (userId : Option UserId) (userData : UserId) (text : String)
    (files : List File) : Option AppOperation :=
  userId.map fun currentUserId => .operation (.sendMessage (groupChatId userId userData)
    currentUserId userData (Dart.trim text) files)

/-- The messages on the screen, once they are settled. -/
def messages (userId : Option UserId) (userData : UserId)
    (firestore : CollectionPath → Collection) : Option (ListShown ChatModel) :=
  let groupId := groupChatId userId userData
  ListView.build (chatMessages ((Query.chatMessages groupId).snapshot (firestore (.chat groupId))))

end ChatMessageScreen

/-- What `ChatMessageView` shows of a message beside its text and pictures. -/
structure ChatMessageView where
  isOwnMessage : Bool
  displayName : String
  deriving DecidableEq, Repr

/-- Nothing is shown until the profiles of the sender and of the reader are there. -/
def ChatMessageView.build (authUser : Option UserId) (chatData : ChatModel) (users : Collection) :
    Option ChatMessageView := do
  let sender ← userInfoModel chatData.sender users
  let isOwnMessage := authUser = some sender.userId
  let authUserData ← userInfoModel (authUser.getD "") users
  return ⟨isOwnMessage, if isOwnMessage then authUserData.displayName else sender.displayName⟩

/-- There is a profile of the user. -/
def HasProfile (userId : UserId) (users : Collection) : Prop :=
  ∃ (id : String) (d : Doc), users[id]? = some d ∧
    d.field FirebaseFieldName.userId = .string userId

section Submitted

variable {userId : Option UserId} {userData : UserId} {text : String} {files : List File}
  {op : AppOperation}

end Submitted

section Profiles

variable {firestore : CollectionPath → Collection} {userId : UserId}

end Profiles

section Settled

variable {firestore : CollectionPath → Collection} {groupId : ChatGroupId}

/-- A stored message has a date, which is the one that is decoded. -/
theorem ChatModel.StoredIn.dated {doc : DocSnapshot} {m : ChatModel}
    (h : m.StoredIn doc.data.field doc.data.field) :
    doc.createdAt = some m.createdAt ∧ doc.date = m.createdAt := by
  have hdate : doc.createdAt = some m.createdAt := by
    have hfield : doc.data.field FirebaseFieldName.createdAt =
      .scalar (.timestamp m.createdAt) := h.createdAt
    rw [DocSnapshot.createdAt, hfield]
    rfl
  rw [DocSnapshot.date, hdate]
  exact ⟨rfl, rfl⟩

end Settled

end TekkGram
