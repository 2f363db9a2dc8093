import TekkGram.App.Operations
import TekkGram.Chat.Conversation
import TekkGram.Views.CommentMessageView
import TekkGram.Views.PostEditScreen

/-!
# What the screens start

The screens start operations for the user who is logged in. A comment can be edited and deleted from
the popup that only its author is shown, a post from the buttons that only its author is shown. The
post or comment that a screen shows may have changed since.
-/

namespace TekkGram

/-- The popup of a comment is there for its author, once the profiles of the author and of the user
are, unless the comment is empty. -/
def CommentMessageView.hasPopup (authUser : Option UserId) (comment : Comment)
    (users : Collection) : Bool :=
  match userInfoModel comment.fromUserId users, userInfoModel (authUser.getD "") users with
  | some commenter, some _ =>
    let isOwnMessage : Bool := authUser = some commenter.userId
    isOwnMessage && comment.comment ≠ ""
  | _, _ => false

/-- The update button of `CommentUpdateDialog`, with the text in the dialog. -/
def CommentUpdateDialog.update (comment : Comment) (text : String) : AppOperation :=
  .operation (.updateComment comment.id (Dart.trim text) comment.fromUserId comment.onPostId
    comment.repliedUserId comment.repliedUserName)

/-- What is chosen in the popup of a comment, and in the dialog that it opens. -/
inductive CommentMessageView.Choice where
  | edit (text : String)
  | delete (answer : Option Bool)
  deriving DecidableEq, Repr

/-- `onSelected` of a comment, up to the call that the dialog ends with. -/
def PostCommentsView.onSelected (comment : Comment) :
    CommentMessageView.Choice → Option AppOperation
  | .edit text => some (CommentUpdateDialog.update comment text)
  | .delete shouldDeleteComment =>
    if shouldDeleteComment.getD false then some (.operation (.deleteComment comment.id)) else none

/-- What `canCurrentUserDeletePostProvider` yields. -/
def canCurrentUserDeletePost (userId : Option UserId) (post : Post) : Bool :=
  userId = some post.userId

/-- The delete button of the details, which is there for who can delete the post, with the answer to
its dialog. -/
def PostDetailsView.delete (userId : Option UserId) (post : Post)
    (shouldDeletePost : Option Bool) : Option AppOperation :=
  if canCurrentUserDeletePost userId post && shouldDeletePost.getD false then
    some (.operation (.post (.deletePost post)))
  else none

/-- The operation of a call of the edit screen. -/
def PostEditScreen.SaveCall.operation : SaveCall → AppOperation
  | editImagePost userId postId message files fileType _ _ =>
    .operation (.post (.editImagePost userId postId message files fileType))
  | editPost _ postId message _ _ _ _ => .operation (.post (.editPost postId message))

/-- The operations that the screens start for a user, who is shown documents of the store. The edit
screen is opened with the post as the details have it now; they were opened with the post as it was
shown before. -/
inductive StartedBy (stored : CollectionPath → String → Doc → Prop) (userId : UserId) :
    AppOperation → Prop
  | auth (op : AuthOperation) : StartedBy stored userId (.operation (.auth op))
  | upload (file : File) (fileType : FileType) (message : Option String)
      (postSettings : Option (List (PostSettings × Bool))) (userData : Option UserInfoModel) :
      StartedBy stored userId
        (.operation (.post (.upload file fileType message postSettings userId userData)))
  | uploadMultipleImageFiles (files : List File) (message : Option String)
      (postSettings : Option (List (PostSettings × Bool))) (fileType : FileType) :
      StartedBy stored userId (.operation
        (.post (.uploadMultipleImageFiles files message postSettings fileType userId)))
  | sendComment {onPostId : PostId} {text : String} {userData : Option UserInfoModel}
      {sub : PostCommentsView.Submission} (hsubmit : PostCommentsView.submitCommentWithController
        onPostId (some userId) text userData = some sub) :
      StartedBy stored userId (.operation (.sendComment sub.fromUserId sub.onPostId sub.comment
        sub.repliedUserName sub.repliedUserId))
  | sendMessage {userData : UserId} {text : String} {files : List File} {op : AppOperation}
      (hsubmit : ChatMessageScreen.submitMessage (some userId) userData text files = some op) :
      StartedBy stored userId op
  | likeDislike (postId : PostId) : StartedBy stored userId (.likeDislike ⟨postId, userId⟩)
  | selected {id : CommentId} {d : Doc} {comment : Comment} {users : Collection}
      {choice : CommentMessageView.Choice} {op : AppOperation} (hstored : stored .comments id d)
      (hcomment : Comment.ofJson d id = some comment)
      (hpopup : CommentMessageView.hasPopup (some userId) comment users = true)
      (hselected : PostCommentsView.onSelected comment choice = some op) :
      StartedBy stored userId op
  | delete {id : PostId} {d : Doc} {post : Post} {answer : Option Bool} {op : AppOperation}
      (hstored : stored .posts id d) (hpost : Post.ofJson id d = some post)
      (hdelete : PostDetailsView.delete (some userId) post answer = some op) :
      StartedBy stored userId op
  | edit {id : PostId} {d d' : Doc} {shown post : Post} {s : PostEditScreen.State}
      {call : PostEditScreen.SaveCall} (hshown : stored .posts id d)
      (hread : Post.ofJson id d = some shown)
      (hcan : canCurrentUserDeletePost (some userId) shown = true) (hstored : stored .posts id d')
      (hpost : Post.ofJson id d' = some post) (hpress : s.press post = some (.ok call)) :
      StartedBy stored userId call.operation

/-- A document names a user as its author. -/
def AuthoredBy (userId : UserId) (d : Doc) : Prop :=
  d.field FirebaseFieldName.userId = .string userId

/-- The operation is one for what the user has written: it writes under the name of the user, or it
edits or deletes a post or comment of which a version of the user's is in the store. -/
def AppOperation.Authorized (stored : CollectionPath → String → Doc → Prop) (userId : UserId) :
    AppOperation → Prop
  | .likeDislike request => request.likedBy = userId
  | .operation (.post (.upload _ _ _ _ fromUserId _)) => fromUserId = userId
  | .operation (.post (.uploadMultipleImageFiles _ _ _ _ fromUserId)) => fromUserId = userId
  | .operation (.post (.editPost postId _)) => ∃ d, stored .posts postId d ∧ AuthoredBy userId d
  | .operation (.post (.editImagePost fromUserId postId _ _ _)) =>
    (∃ d, stored .posts postId d ∧ AuthoredBy userId d) ∧
      ∃ d, stored .posts postId d ∧ AuthoredBy fromUserId d
  | .operation (.post (.deletePost post)) =>
    post.userId = userId ∧ ∃ d, stored .posts post.postId d ∧ AuthoredBy userId d
  | .operation (.sendComment fromUserId _ _ _ _) => fromUserId = userId
  | .operation (.updateComment commentId _ fromUserId postId repliedUserId repliedUserName) =>
    fromUserId = userId ∧ ∃ (d : Doc) (comment : Comment), stored .comments commentId d ∧
      Comment.ofJson d commentId = some comment ∧ comment.fromUserId = fromUserId ∧
      comment.onPostId = postId ∧ comment.repliedUserId = repliedUserId ∧
      comment.repliedUserName = repliedUserName
  | .operation (.deleteComment commentId) =>
    ∃ d, stored .comments commentId d ∧ AuthoredBy userId d
  | .operation (.sendMessage _ currentUserId _ _ _) => currentUserId = userId
  | .operation (.auth _) => True

section Authorized

variable {stored stored' : CollectionPath → String → Doc → Prop} {userId : UserId}
  {op : AppOperation}

theorem Value.eq_string_of_asString {v : Value} {text : String} (h : v.asString = some text) :
    v = .string text := by
  cases v with
  | scalar s =>
    cases s with
    | string s =>
      cases h
      rfl
    | _ => cases h
  | _ => cases h

theorem Comment.ofJson_fields {id : CommentId} {d : Doc} {comment : Comment}
    (h : Comment.ofJson d id = some comment) :
    comment.id = id ∧ AuthoredBy comment.fromUserId d := by
  simp only [Comment.ofJson, Option.bind_eq_bind, Option.bind_eq_some_iff, Option.pure_def,
    Option.some.injEq] at h
  obtain ⟨_, -, _, -, fromUserId, huser, _, -, _, -, _, -, rfl⟩ := h
  exact ⟨rfl, Value.eq_string_of_asString huser⟩

end Authorized

end TekkGram
