import TekkGram.Model.Rules

/-!
# SendCommentNotifier and DeleteCommentStateNotifier

A comment is added, edited in place, or deleted by its id. All three turn their flag off in a
`finally` clause.
-/

namespace TekkGram

open Interaction Async

namespace SendCommentNotifier

/-- The `try` block of `sendComment`. -/
def addComment (payload : Doc) : Action Unit Bool := do
  let _ ← await (.add .comments payload)
  return true

/-- `sendComment`. -/
def sendComment (fromUserId : UserId) (onPostId : PostId) (comment repliedUserName : String)
    (repliedUserId : UserId) : Action Unit Bool := do
  await (.setLoading .sendComment true)
  let payload := commentPayload fromUserId onPostId comment repliedUserName repliedUserId
  tryFinally (tryCatch (addComment payload) fun _ => pure false)
    (await (.setLoading .sendComment false))

/-- What sending a comment can do: leave the documents as they are, or add the comment under a new
id. -/
theorem sendComment_spec (fromUserId : UserId) (onPostId : PostId)
    (comment repliedUserName : String) (repliedUserId : UserId) (s : Unit) (w : World) :
    (sendComment fromUserId onPostId comment repliedUserName repliedUserId).wp World.step
      (fun _ out _ w' => (out = .ok false ∧ w'.firestore = w.firestore) ∨
        ∃ id t, out = .ok true ∧ id ∉ w.firestore .comments ∧
          w' = ((w.setLoading .sendComment true).setDoc .comments id ((commentPayload fromUserId
            onPostId comment repliedUserName repliedUserId).resolve t)).setLoading .sendComment
              false) s w := by
  unfold sendComment addComment
  dsimp only
  rw [wp_bind, wp_setLoading, ends_ok, wp_tryFinally_tryCatch, wp_bind, wp_add]
  constructor
  · rw [ends_error, ends_error]
    exact .inl ⟨rfl, rfl⟩
  · intro id t hid
    rw [ends_ok, wp_pure, ends_ok]
    exact .inr ⟨id, t, rfl, hid, rfl⟩

/-- The query for the comments of a post. -/
def commentsOf (postId : PostId) : Query where
  collection := .comments
  filters := [(FirebaseFieldName.postId, .string postId)]

/-- The fields that an edit writes to a comment. -/
def editedFields (comment : String) (userId : UserId) (postId : PostId) (repliedUserId : UserId)
    (repliedUserName : String) : Doc :=
  [(FirebaseFieldName.postId, .string postId),
   (FirebaseFieldName.userId, .string userId),
   (FirebaseFieldName.comment, .string comment),
   (FirebaseFieldName.repliedUser, .string repliedUserName),
   (FirebaseFieldName.repliedUserId, .string repliedUserId)]

/-- The `try` block of `updateComment`. -/
def editComment (commentId : CommentId) (comment : String) (userId : UserId) (postId : PostId)
    (repliedUserId : UserId) (repliedUserName : String) : Action Unit Bool := do
  let commentData : List DocSnapshot ← await (.get (commentsOf postId))
  let comments := commentData.filter fun comment => comment.id = commentId
  match comments with
  | [] => return true
  | first :: _ => do
    await (.update .comments first.id
      (editedFields comment userId postId repliedUserId repliedUserName))
    return true

/-- `updateComment`. -/
def updateComment (commentId : CommentId) (comment : String) (userId : UserId) (postId : PostId)
    (repliedUserId : UserId) (repliedUserName : String) : Action Unit Bool := do
  await (.setLoading .sendComment true)
  tryFinally
    (tryCatch (editComment commentId comment userId postId repliedUserId repliedUserName)
      fun _ => pure false)
    (await (.setLoading .sendComment false))

end SendCommentNotifier

namespace DeleteCommentStateNotifier

/-- The `try` block of `deleteComment`. -/
def deleteDocuments (commentId : CommentId) : Action Unit Bool := do
  await (.setLoading .deleteComment true)
  let query : List DocSnapshot ← await (.get (.byId .comments commentId))
  forEach query fun doc => await (.delete .comments doc.id)
  return true

/-- `deleteComment`. -/
def deleteComment (commentId : CommentId) : Action Unit Bool :=
  tryFinally (tryCatch (deleteDocuments commentId) fun _ => pure false)
    (await (.setLoading .deleteComment false))

end DeleteCommentStateNotifier

end TekkGram
