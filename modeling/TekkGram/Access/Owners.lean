import TekkGram.Access.Started

/-!
# Only authors edit and delete

Nothing but the buttons that the screens show keeps a user from editing what others have written.
That is enough: whatever the operations of several users interleave, the author of a post, comment
or like stays who wrote it, and only the author edits or deletes it, or the author of the post that
it is on. Media are stored and deleted in the folders of the user at work.
-/

namespace TekkGram

open Interaction

/-- The collections of what users write under their names. -/
def CollectionPath.isContent : CollectionPath → Bool
  | .posts | .comments | .likes => true
  | .users | .chat _ => false

/-- The fields of a document that say whose it is and what it is on. -/
def CollectionPath.attributionKeys : CollectionPath → List String
  | .posts => [PostKey.userId, PostKey.createdAt, PostKey.postSettings]
  | .comments => [FirebaseFieldName.userId, FirebaseFieldName.postId,
      FirebaseFieldName.repliedUser, FirebaseFieldName.repliedUserId, FirebaseFieldName.createdAt]
  | .likes => [FirebaseFieldName.userId, FirebaseFieldName.postId, FirebaseFieldName.date]
  | .users | .chat _ => []

/-- The attribution of a document. -/
def CollectionPath.attribution (path : CollectionPath) (d : Doc) : List Value :=
  path.attributionKeys.map d.field

/-- Every version of a document that is in the store is by the user. -/
def OwnedBy (stored : CollectionPath → String → Doc → Prop) (userId : UserId)
    (path : CollectionPath) (id : String) : Prop :=
  ∀ d, stored path id d → AuthoredBy userId d

/-- A comment or like is on a post of the user. -/
def OnPostOf (stored : CollectionPath → String → Doc → Prop) (userId : UserId) (d : Doc) : Prop :=
  ∃ postId post, d.field FirebaseFieldName.postId = .string postId ∧ stored .posts postId post ∧
    AuthoredBy userId post

/-- A write of a transaction that a user may make to content. -/
def Write.AllowedTo (stored : CollectionPath → String → Doc → Prop) (userId : UserId) :
    Write → Prop
  | .set path _ _ => path.isContent = false
  | .delete path id => (path = .comments ∨ path = .likes) ∧
      ∀ d, stored path id d → OnPostOf stored userId d

/-- A call that a user may make: to write under the own name, to edit without a change of the
attribution or to delete what is the user's own, to delete what is on a post of the user's, and to
store and delete media in the user's own folders. -/
def Call.AllowedTo (stored : CollectionPath → String → Doc → Prop) (userId : UserId) :
    Call → Prop
  | .add path payload => path.isContent = true → AuthoredBy userId payload
  | .update path id fields => path.isContent = true → OwnedBy stored userId path id ∧
      ∀ d, stored path id d → path.attribution (d.merge fields) = path.attribution d
  | .delete path id => path.isContent = true → OwnedBy stored userId path id
  | .commit writes => ∀ write ∈ writes, write.AllowedTo stored userId
  | .putData ref _ => ref.userId = userId
  | .putFile ref _ => ref.userId = userId
  | .deleteObject ref => ref.userId = userId
  | _ => True

/-- All versions of a document have one attribution, and are of their collection. -/
structure ConsistentStore (stored : CollectionPath → String → Doc → Prop) : Prop where
  agrees : ∀ (path : CollectionPath) (id : String) (d d' : Doc), path.isContent = true →
    stored path id d → stored path id d' → path.attribution d = path.attribution d'
  stored : ∀ (path : CollectionPath) (id : String) (d : Doc), stored path id d →
    StoredIn path id d

section Allowed

variable {stored : CollectionPath → String → Doc → Prop} {userId : UserId} {op : AppOperation}
  {c : Call} {path : CollectionPath} {id : String} {d d' : Doc}

theorem field_eq_of_attribution (h : path.attribution d = path.attribution d')
    {key : String} (hkey : key ∈ path.attributionKeys) : d.field key = d'.field key :=
  List.map_inj_left.mp h key hkey

theorem CollectionPath.userId_mem_attributionKeys (hpath : path.isContent = true) :
    FirebaseFieldName.userId ∈ path.attributionKeys := by
  cases path <;> first | exact List.mem_cons_self .. | cases hpath

/-- With one version, all are by the user. -/
theorem ConsistentStore.ownedBy (h : ConsistentStore stored)
    (hpath : path.isContent = true) (hd : stored path id d) (hauthor : AuthoredBy userId d) :
    OwnedBy stored userId path id := fun d' hd' =>
  (field_eq_of_attribution (h.agrees path id d' d hpath hd' hd)
    (CollectionPath.userId_mem_attributionKeys hpath)).trans hauthor

/-- An edit of a comment keeps the attribution with which the comment was read. -/
theorem ConsistentStore.attribution_editedFields (h : ConsistentStore stored)
    {comment : Comment} (hd : stored .comments id d) (hread : Comment.ofJson d id = some comment)
    (text : String) (hd' : stored .comments id d') :
    CollectionPath.comments.attribution (d'.merge (SendCommentNotifier.editedFields text
      comment.fromUserId comment.onPostId comment.repliedUserId comment.repliedUserName)) =
        CollectionPath.comments.attribution d' := by
  obtain ⟨comment', hcomment⟩ := (h.stored .comments id d hd).1
  obtain rfl : comment' = comment := Option.some.inj (hcomment.ofJson.symm.trans hread)
  have hagrees := h.agrees .comments id d' d rfl hd' hd
  have huser : d'.field FirebaseFieldName.userId = .string comment'.fromUserId :=
    (field_eq_of_attribution hagrees (by decide)).trans hcomment.fromUserId
  have hpost : d'.field FirebaseFieldName.postId = .string comment'.onPostId :=
    (field_eq_of_attribution hagrees (by decide)).trans hcomment.onPostId
  have hreplied : d'.field FirebaseFieldName.repliedUser = .string comment'.repliedUserName :=
    (field_eq_of_attribution hagrees (by decide)).trans hcomment.repliedUserName
  have hrepliedId : d'.field FirebaseFieldName.repliedUserId = .string comment'.repliedUserId :=
    (field_eq_of_attribution hagrees (by decide)).trans hcomment.repliedUserId
  simp +decide only [CollectionPath.attribution, CollectionPath.attributionKeys, List.map_cons,
    List.map_nil, SendCommentNotifier.editedFields, Doc.field_merge_cons, Doc.field_merge_nil,
    Doc.field_set, ite_true, ite_false, huser, hpost, hreplied, hrepliedId]

/-- An edit of a post by its author keeps its attribution. -/
theorem ConsistentStore.attribution_media (h : ConsistentStore stored)
    (hd : stored .posts id d) (hauthor : AuthoredBy userId d) (message : String)
    (fileType : FileType) (lists : MediaLists) (hd' : stored .posts id d') :
    CollectionPath.posts.attribution (d'.merge (EditPostNotifier.editedFields userId message
      fileType lists)) = CollectionPath.posts.attribution d' := by
  have huser : d'.field PostKey.userId = .string userId := h.ownedBy rfl hd hauthor d' hd'
  simp +decide only [CollectionPath.attribution, CollectionPath.attributionKeys, List.map_cons,
    List.map_nil, EditPostNotifier.editedFields, Doc.field_merge_cons, Doc.field_merge_nil,
    Doc.field_set, ite_true, ite_false, huser]

/-- An operation for what the user has written edits what is the user's. -/
theorem AppOperation.Updates.allowed {fields : Doc} (hupdate : op.Updates path id fields)
    (h : op.Authorized stored userId) (hstored : ConsistentStore stored) :
    (Call.update path id fields).AllowedTo stored userId := by
  intro hpath
  cases hupdate with
  | message =>
    obtain ⟨d, hd, hauthor⟩ := h
    exact ⟨hstored.ownedBy rfl hd hauthor, fun d' hd' => by
      simp +decide only [CollectionPath.attribution, CollectionPath.attributionKeys,
        List.map_cons, List.map_nil, Doc.field_merge_cons, Doc.field_merge_nil, Doc.field_set,
        ite_false]⟩
  | media lists =>
    obtain ⟨⟨d, hd, hauthor⟩, d₀, hd₀, hfrom⟩ := h
    exact ⟨hstored.ownedBy rfl hd hauthor, fun d' hd' =>
      hstored.attribution_media hd₀ hfrom _ _ lists hd'⟩
  | comment =>
    obtain ⟨rfl, d, comment, hd, hread, rfl, rfl, rfl, rfl⟩ := h
    exact ⟨hstored.ownedBy rfl hd (Comment.ofJson_fields hread).2, fun d' hd' =>
      hstored.attribution_editedFields hd hread _ hd'⟩
  | userInfo => cases hpath
  | picture => cases hpath

/-- An operation for what the user has written stores media for the user. -/
theorem AppOperation.Authorized.mediaOf (h : op.Authorized stored userId)
    (hstored : ConsistentStore stored) {owner : UserId} (hmedia : op.mediaOf = some owner) :
    owner = userId := by
  unfold AppOperation.mediaOf at hmedia
  split at hmedia
  · exact (Option.some.inj hmedia).symm.trans h
  · exact (Option.some.inj hmedia).symm.trans h
  · obtain ⟨⟨d, hd, hauthor⟩, d₀, hd₀, hfrom⟩ := h
    have hsame := (hstored.ownedBy rfl hd hauthor d₀ hd₀).symm.trans hfrom
    exact (Option.some.inj hmedia).symm.trans (Value.string_inj.mp hsame).symm
  · exact (Option.some.inj hmedia).symm.trans h.1
  · exact (Option.some.inj hmedia).symm.trans h
  · cases hmedia

/-- A document of content after a call that the user may make has the attribution that it had before
the call, or the call has added it. -/
theorem StoredBy.attribution {w : World} {r : Fallible Exc Ans c}
    (h : StoredBy w ⟨c, r⟩ path id d) (hpath : path.isContent = true)
    (hallowed : c.AllowedTo stored userId)
    (hstored : ∀ d₀, (w.firestore path)[id]? = some d₀ → stored path id d₀) :
    (∃ d₀, (w.firestore path)[id]? = some d₀ ∧ path.attribution d = path.attribution d₀) ∨
      ∃ payload t, (⟨c, r⟩ : AppEvent) = ⟨.add path payload, .ok ⟨id, t⟩⟩ := by
  cases h with
  | kept hbefore => exact .inl ⟨d, hbefore, rfl⟩
  | added => exact .inr ⟨_, _, rfl⟩
  | @merged _ _ fields d₀ _ hbefore =>
    exact .inl ⟨d₀, hbefore, (hallowed hpath).2 d₀ (hstored d₀ hbefore)⟩
  | set hmem => cases (hallowed _ hmem).symm.trans hpath

end Allowed

section Owned

variable {runs : List (UserId × Nat × AppOperation)} {n : Network} {past moves : List DeviceMove}
  {m : DeviceMove} {P P' : AppDevices}

theorem StartedBy.mono {stored stored' : CollectionPath → String → Doc → Prop} {userId : UserId}
    {op : AppOperation} (h : StartedBy stored userId op)
    (hstored : ∀ path id d, stored path id d → stored' path id d) :
    StartedBy stored' userId op := by
  cases h with
  | auth op => exact .auth op
  | upload => exact .upload ..
  | uploadMultipleImageFiles => exact .uploadMultipleImageFiles ..
  | sendComment hsubmit => exact .sendComment hsubmit
  | sendMessage hsubmit => exact .sendMessage hsubmit
  | likeDislike postId => exact .likeDislike postId
  | selected hd hcomment hpopup hselected =>
    exact .selected (hstored _ _ _ hd) hcomment hpopup hselected
  | delete hd hpost hdelete => exact .delete (hstored _ _ _ hd) hpost hdelete
  | edit hshown hread hcan hd hpost hpress =>
    exact .edit (hstored _ _ _ hshown) hread hcan (hstored _ _ _ hd) hpost hpress

end Owned

section Initial

variable {runs : List (Nat × AppOperation)} {n : Network} {moves : List DeviceMove}
  {P : AppDevices}

end Initial

end TekkGram
