import TekkGram.Auth.LoggedInProfile
import TekkGram.Model.Working
import TekkGram.Notifiers.Comments
import TekkGram.Notifiers.EditPost

/-!
# A successful update really happened

Four operations change a stored document and answer `true`. Each looks its target up first. The
edit of a post's media answers `false` when there is none, and saving a profile adds one; the edits
of a message and of a comment answer `true` all the same.
-/

namespace TekkGram

open Interaction Async

/-- The operations that change a stored post, comment or profile. -/
inductive UpdateOperation where
  | editPost (postId : PostId) (message : String)
  | editImagePost (userId : UserId) (postId : PostId) (message : String) (files : List File)
      (fileType : FileType)
  | updateComment (commentId : CommentId) (comment : String) (userId : UserId) (postId : PostId)
      (repliedUserId : UserId) (repliedUserName : String)
  | saveUserInfo (userId : UserId) (displayName : String) (email phone imageUrl : Option String)

namespace UpdateOperation

/-- The body of an operation. -/
def body : UpdateOperation → Action Unit Bool
  | editPost postId message => EditPostNotifier.editPost postId message
  | editImagePost userId postId message files fileType =>
    EditPostNotifier.editImagePost userId postId message files fileType
  | updateComment commentId comment userId postId repliedUserId repliedUserName =>
    SendCommentNotifier.updateComment commentId comment userId postId repliedUserId repliedUserName
  | saveUserInfo userId displayName email phone imageUrl =>
    UserInfoStorage.saveUserInfo userId displayName email phone imageUrl

/-- The target is stored with the values that were passed. -/
def Applied (w : World) : UpdateOperation → Prop
  | editPost postId message => ∃ d, (w.firestore .posts)[postId]? = some d ∧
      d.field PostKey.message = .string message
  | editImagePost _ postId message _ _ => ∃ d, (w.firestore .posts)[postId]? = some d ∧
      d.field PostKey.message = .string message
  | updateComment commentId comment _ _ _ _ => ∃ d, (w.firestore .comments)[commentId]? = some d ∧
      d.field FirebaseFieldName.comment = .string comment
  | saveUserInfo userId displayName email phone imageUrl =>
    ∃ (id : String) (d : Doc), (w.firestore .users)[id]? = some d ∧
      d.field FirebaseFieldName.userId = .string userId ∧
      d.field FirebaseFieldName.displayName = .string displayName ∧
      d.field FirebaseFieldName.email = .string (email.getD "") ∧
      d.field FirebaseFieldName.phone = .string (phone.getD "") ∧
      d.field FirebaseFieldName.imageUrl = .string (imageUrl.getD "")

/-- What must be stored before the operation, so that a successful answer is true. A comment that
already has its new text needs no change. -/
def HasTarget (w : World) : UpdateOperation → Prop
  | editPost postId _ => ((w.firestore .posts)[postId]?).isSome
  | editImagePost .. => True
  | updateComment commentId comment _ postId _ _ =>
    ∃ d, (w.firestore .comments)[commentId]? = some d ∧
      (d.field FirebaseFieldName.postId = .string postId ∨
        d.field FirebaseFieldName.comment = .string comment)
  | saveUserInfo .. => True

end UpdateOperation

section Lookup

variable {w : World}

/-- The comment that an edit looks up is stored under its post. -/
theorem SendCommentNotifier.mem_filter_commentsOf {commentId : CommentId} {postId : PostId}
    {s : DocSnapshot} :
    s ∈ ((commentsOf postId).eval (w.firestore .comments)).filter (fun c => c.id = commentId) ↔
      s.id = commentId ∧ (w.firestore .comments)[commentId]? = some s.data ∧
        s.data.field FirebaseFieldName.postId = .string postId := by
  rw [List.mem_filter, Query.mem_eval_iff rfl, decide_eq_true_iff]
  constructor
  · rintro ⟨⟨hstored, hselects⟩, rfl⟩
    exact ⟨rfl, hstored, by simpa [commentsOf, Query.selects] using hselects⟩
  · rintro ⟨rfl, hstored, hpost⟩
    exact ⟨⟨hstored, by simp [commentsOf, Query.selects, hpost]⟩, rfl⟩

/-- An edit of a message is truthful exactly when its post is stored. -/
theorem EditPostNotifier.editPost_applied_iff (postId : PostId) (message : String) :
    (editPost postId message).wp World.step
      (fun _ out _ w' => out = .ok true → (UpdateOperation.editPost postId message).Applied w')
      () w ↔ (UpdateOperation.editPost postId message).HasTarget w := by
  unfold editPost editMessage
  rw [wp_tryFinally_tryCatch, wp_bind, wp_setLoading, ends_ok, wp_bind, wp_get_query]
  simp only [ends_ok, ends_error]
  rw [show (Query.byId .posts postId).collection = .posts from rfl, World.setLoading_firestore,
    filter_eval_byId]
  cases hd : (w.firestore .posts)[postId]? with
  | none =>
    simp only [Option.map_none, Option.toList_none]
    rw [wp_pure, ends_ok]
    simp [UpdateOperation.Applied, UpdateOperation.HasTarget, hd]
  | some d =>
    simp only [Option.map_some, Option.toList_some]
    rw [wp_bind, wp_update]
    simp only [ends_ok, ends_error, wp_pure]
    have hmessage : (d.merge [("message", .string message)]).field PostKey.message =
        .string message := by
      simp [Doc.field_merge_cons, Doc.field_set, PostKey.message]
    simp [UpdateOperation.Applied, UpdateOperation.HasTarget, hd, hmessage]

/-- An edit of a comment is truthful exactly when the comment is stored under its post, or already
has its new text. -/
theorem SendCommentNotifier.updateComment_applied_iff (commentId : CommentId) (comment : String)
    (userId : UserId) (postId : PostId) (repliedUserId : UserId) (repliedUserName : String) :
    (updateComment commentId comment userId postId repliedUserId repliedUserName).wp World.step
      (fun _ out _ w' => out = .ok true → (UpdateOperation.updateComment commentId comment userId
        postId repliedUserId repliedUserName).Applied w') () w ↔
      (UpdateOperation.updateComment commentId comment userId postId repliedUserId
        repliedUserName).HasTarget w := by
  unfold updateComment editComment
  rw [wp_bind, wp_setLoading, ends_ok, wp_tryFinally_tryCatch, wp_bind, wp_get_query]
  simp only [ends_ok, ends_error]
  rw [show (commentsOf postId).collection = .comments from rfl, World.setLoading_firestore]
  cases hfound : ((commentsOf postId).eval (w.firestore .comments)).filter
      (fun c => c.id = commentId) with
  | nil =>
    have hnone : ∀ d, (w.firestore .comments)[commentId]? = some d →
        d.field FirebaseFieldName.postId ≠ .string postId := by
      intro d hd hpost
      have hin := (mem_filter_commentsOf (s := ⟨commentId, d⟩)).mpr ⟨rfl, hd, hpost⟩
      rw [hfound] at hin
      cases hin
    rw [wp_pure, ends_ok]
    constructor
    · rintro ⟨-, h⟩
      obtain ⟨d, hd, hcomment⟩ := h rfl
      exact ⟨d, hd, .inr hcomment⟩
    · rintro ⟨d, hd, hpost | hcomment⟩
      · exact absurd hpost (hnone d hd)
      · exact ⟨by simp, fun _ => ⟨d, hd, hcomment⟩⟩
  | cons first rest =>
    obtain ⟨hid, hstored, hpost⟩ := mem_filter_commentsOf.mp
      (hfound ▸ List.mem_cons_self (a := first) (l := rest))
    have hcomment : (first.data.merge (editedFields comment userId postId repliedUserId
        repliedUserName)).field FirebaseFieldName.comment = .string comment := by
      simp +decide [editedFields, Doc.field_merge_cons, Doc.field_set]
    subst hid
    rw [wp_bind, wp_update]
    simp only [ends_ok, ends_error, wp_pure]
    constructor
    · intro _
      exact ⟨first.data, hstored, .inl hpost⟩
    · intro _
      refine ⟨by simp, by simp, by simp, fun d hd _ => ?_⟩
      obtain rfl : first.data = d := Option.some.inj (hstored.symm.trans hd)
      exact ⟨_, by simp, hcomment⟩

end Lookup

/-- A successful edit of a post's media is truthful. -/
theorem EditPostNotifier.editImagePost_applied (userId : UserId) (postId : PostId)
    (message : String) (files : List File) (fileType : FileType) (w : World) :
    (editImagePost userId postId message files fileType).wp World.step
      (fun _ out _ w' => out = .ok true →
        (UpdateOperation.editImagePost userId postId message files fileType).Applied w') () w := by
  refine wp_mono (editImagePost_spec userId postId message files fileType () w) ?_
  rintro tr out s' w' (⟨rfl, -, -⟩ | ⟨d, lists, w₁, rfl, hd, -, rfl, -⟩) hsuccess
  · cases hsuccess
  · refine ⟨d.merge (editedFields userId message fileType lists), by simp, ?_⟩
    simp +decide [editedFields, Doc.field_merge_cons, Doc.field_set]

/-- A successful save of a profile is truthful: it updates a profile, or adds the missing one. -/
theorem UserInfoStorage.saveUserInfo_applied (userId : UserId) (displayName : String)
    (email phone imageUrl : Option String) (w : World) :
    (saveUserInfo userId displayName email phone imageUrl : Action Unit Bool).wp World.step
      (fun _ out _ w' => out = .ok true →
        (UpdateOperation.saveUserInfo userId displayName email phone imageUrl).Applied w')
      () w := by
  unfold saveUserInfo updateOrAdd
  rw [wp_tryCatch, wp_bind, wp_get_query]
  constructor
  · rw [ends_error, ends_error, wp_pure]
    exact nofun
  · rw [ends_ok]
    cases hfound : (profileOf userId).eval (w.firestore (profileOf userId).collection) with
    | nil =>
      rw [wp_bind, wp_add]
      constructor
      · rw [ends_error, ends_error, wp_pure]
        exact nofun
      · intro id t _
        rw [ends_ok, wp_pure, ends_ok]
        intro _
        refine ⟨id, _, Collection.getElem?_insert_self, ?_⟩
        simp +decide [Doc.field_resolve, userInfoPayload, Doc.field_cons]
    | cons doc docs =>
      obtain ⟨hstored, hselects⟩ := Query.mem_eval
        (hfound ▸ List.mem_cons_self (a := doc) (l := docs))
      have huser : doc.data.field FirebaseFieldName.userId = .string userId := by
        simpa [profileOf, Query.selects] using hselects
      rw [wp_bind, wp_update]
      refine ⟨?_, fun _ => ?_, fun d hd => ?_⟩
      · rw [ends_error, ends_error, wp_pure]
        exact nofun
      · rw [ends_error, ends_error, wp_pure]
        exact nofun
      · rw [ends_ok, wp_pure, ends_ok]
        intro _
        obtain rfl : doc.data = d := Option.some.inj (hstored.symm.trans hd)
        refine ⟨doc.id, _, Collection.getElem?_insert_self, ?_⟩
        simp +decide [updatedFields, Doc.field_merge_cons, Doc.field_set, huser]

namespace UpdateOperation

/-- Every successful run of an update has changed its target exactly when there was one to
change. -/
theorem applied_iff (op : UpdateOperation) (w : World) :
    (∀ tr w', Runs World.step w (op.body ()) tr (.ok true, ()) w' → op.Applied w') ↔
      op.HasTarget w := by
  have hwp : (∀ tr w', Runs World.step w (op.body ()) tr (.ok true, ()) w' → op.Applied w') ↔
      op.body.wp World.step (fun _ out _ w' => out = .ok true → op.Applied w') () w := by
    constructor
    · rintro h tr out s' w' hr rfl
      exact h tr w' hr
    · intro h tr w' hr
      exact wp.elim h hr rfl
  rw [hwp]
  cases op with
  | editPost postId message => exact EditPostNotifier.editPost_applied_iff postId message
  | editImagePost userId postId message files fileType =>
    exact iff_of_true
      (EditPostNotifier.editImagePost_applied userId postId message files fileType w) trivial
  | updateComment commentId comment userId postId repliedUserId repliedUserName =>
    exact SendCommentNotifier.updateComment_applied_iff commentId comment userId postId
      repliedUserId repliedUserName
  | saveUserInfo userId displayName email phone imageUrl =>
    exact iff_of_true
      (UserInfoStorage.saveUserInfo_applied userId displayName email phone imageUrl w) trivial

/-- An edit of a deleted post is answered `true`, and no post has the message. -/
theorem not_applied_of_deleted : ∃ tr w', Runs World.step World.initial
      ((editPost "p" "hello").body ()) tr (.ok true, ()) w' ∧
    ¬ (editPost "p" "hello").Applied w' := by
  have hexec : (((editPost "p" "hello").body ()).exec World.step World.working 0
      World.initial).any (fun r => r.2.1 = (.ok true, ()) ∧
        (r.2.2.firestore .posts)["p"]? = none) = true := by
    decide +kernel
  obtain ⟨tr, out, w', hrun, hout⟩ := Program.exec_any hexec
  obtain ⟨rfl, hnone⟩ : out = (.ok true, ()) ∧ (w'.firestore .posts)["p"]? = none :=
    of_decide_eq_true hout
  refine ⟨tr, w', hrun, ?_⟩
  rintro ⟨d, hd, -⟩
  cases hnone.symm.trans hd

end UpdateOperation

end TekkGram
