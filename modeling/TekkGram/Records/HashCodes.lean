import TekkGram.Comments.Sorting
import TekkGram.Hashing.Table
import TekkGram.Model.World

/-!
# Equality and hash codes of the models

Each model class has an equality and a hash code of its own, from fields that are built-in values or
other objects. Objects without an equality, such as posts, files and sequences of comments, are
equal to themselves only and have hash codes that tell nothing about their contents.
-/

namespace TekkGram

/-- The identity of an object. -/
abbrev Ref := Nat

/-- What a model class hashes: built-in values, and objects by their identity. -/
inductive DartValue where
  | null
  | bool (b : Bool)
  | int (n : Int)
  | string (s : String)
  | dateTime (t : Timestamp)
  | fileType (fileType : FileType)
  | dateSorting (dateSorting : DateSorting)
  | authResult (result : AuthResult)
  | runtimeType (name : String)
  | object (ref : Ref)
  deriving DecidableEq, Repr

/-- A value that may be `null`. -/
def DartValue.ofNullable {α : Type} (f : α → DartValue) (x : Option α) : DartValue := x.elim null f

/-- The hash codes of a running app: those of values and identities, and how they are combined. -/
structure HashFunctions where
  hashCode : DartValue → Int
  combineAll : List Int → Int
  combine : List Int → Int

/-- `Object.hashAll`. -/
def HashFunctions.hashAll (h : HashFunctions) (values : List DartValue) : Int :=
  h.combineAll (values.map h.hashCode)

/-- `Object.hash`. -/
def HashFunctions.hash (h : HashFunctions) (values : List DartValue) : Int :=
  h.combine (values.map h.hashCode)

/-- The members of an object that `==` compares and those that `hashCode` combines, each in the
order of the source. -/
structure Members where
  compared : List DartValue
  hashed : List DartValue
  deriving DecidableEq, Repr

def Comment.members (a : Comment) : Members where
  compared := [.string a.id, .string a.comment, .dateTime a.createdAt, .string a.fromUserId,
    .string a.onPostId, .string a.repliedUserId, .string a.repliedUserName]
  hashed := [.string a.id, .string a.comment, .dateTime a.createdAt, .string a.fromUserId,
    .string a.onPostId, .string a.repliedUserName, .string a.repliedUserId]

def UserInfoModel.members (a : UserInfoModel) : Members where
  compared := [.string a.userId, .string a.displayName, .ofNullable .string a.email,
    .ofNullable .string a.phone, .ofNullable .string a.imageUrl]
  hashed := [.string a.userId, .string a.displayName, .ofNullable .string a.email,
    .ofNullable .string a.phone, .ofNullable .string a.imageUrl]

def ChatModel.members (a : ChatModel) : Members where
  compared := [.string a.sender, .string a.receiver, .string a.message, .string a.type,
    .dateTime a.createdAt]
  hashed := [.string a.sender, .string a.receiver, .string a.message, .string a.type,
    .dateTime a.createdAt]

def AuthState.members (a : AuthState) : Members where
  compared := [.ofNullable .authResult a.result, .bool a.isLoading, .ofNullable .string a.userId]
  hashed := [.ofNullable .authResult a.result, .bool a.isLoading, .ofNullable .string a.userId]

def RequestForPostAndComments.members (a : RequestForPostAndComments) : Members where
  compared := [.string a.postId, .bool a.sortByCreatedAt, .dateSorting a.dateSorting,
    .ofNullable (fun n => .int n) a.limit]
  hashed := [.string a.postId, .bool a.sortByCreatedAt, .dateSorting a.dateSorting,
    .ofNullable (fun n => .int n) a.limit]

/-- The fields of a `ThumbnailRequest`, with the identity of its file. -/
structure ThumbnailRequestFields where
  file : Ref
  fileType : FileType
  deriving DecidableEq, Repr

def ThumbnailRequestFields.members (a : ThumbnailRequestFields) : Members where
  compared := [.runtimeType "ThumbnailRequest", .object a.file, .fileType a.fileType]
  hashed := [.runtimeType "ThumbnailRequest", .object a.file, .fileType a.fileType]

/-- The fields of a `PostWithComments`, with the identities of the post and of the sequence of
comments. -/
structure PostWithCommentsFields where
  post : Ref
  comments : Ref
  deriving DecidableEq, Repr

/-- What is compared besides the sequences of comments, and what is hashed. -/
def PostWithCommentsFields.members (a : PostWithCommentsFields) : Members where
  compared := [.object a.post]
  hashed := [.object a.post, .object a.comments]

/-- The objects of a running app by their identities. A sequence has comment objects as its items;
an item that throws is missing. -/
structure Heap where
  comment : Ref → Comment
  userInfoModel : Ref → UserInfoModel
  chatModel : Ref → ChatModel
  authState : Ref → AuthState
  thumbnailRequest : Ref → ThumbnailRequestFields
  request : Ref → RequestForPostAndComments
  postWithComments : Ref → PostWithCommentsFields
  comments : Ref → Iterable Ref

inductive ModelClass where
  | postWithComments
  | comment
  | userInfoModel
  | chatModel
  | authState
  | thumbnailRequest
  | requestForPostAndComments
  deriving DecidableEq, Repr

/-- The parameter of `==` is `covariant`: comparing with an object of another class throws. -/
def ModelClass.covariant : ModelClass → Bool
  | postWithComments | authState | requestForPostAndComments => true
  | comment | userInfoModel | chatModel | thumbnailRequest => false

/-- An object of a model class. -/
structure ModelObject where
  modelClass : ModelClass
  ref : Ref
  deriving DecidableEq, Repr

/-- `==` of a class that compares members, some after asking whether the objects are identical. -/
def sameMembers (asksIdentical : Bool) (members : Ref → Members) (this other : Ref) : Bool :=
  asksIdentical && this = other || (members this).compared = (members other).compared

/-- `IterableEquality`: sequences whose items are all there are equal if the items are, in their
order. -/
structure IterableEquality where
  equals (elementEquals : Ref → Ref → Bool) (items : Ref → Iterable Ref)
    (elements1 elements2 : Ref) : Option Bool
  equals_iff (elementEquals : Ref → Ref → Bool) (items : Ref → Iterable Ref)
    {elements1 elements2 : Ref} {xs ys : List Ref} (hrefl : ∀ x, elementEquals x x = true)
    (hxs : items elements1 = xs.map some) (hys : items elements2 = ys.map some) :
    equals elementEquals items elements1 elements2 = some true ↔
      List.Forall₂ (fun x y => elementEquals x y = true) xs ys

/-- The comparison of items: each step computes one of the first sequence and then one of the
second. -/
def sameItems (elementEquals : Ref → Ref → Bool) : Iterable Ref → Iterable Ref → Option Bool
  | [], [] => some true
  | [], y :: _ => y.map fun _ => false
  | x :: _, [] => x.map fun _ => false
  | x :: xs, y :: ys => do
    let current1 ← x
    let current2 ← y
    if elementEquals current1 current2 then sameItems elementEquals xs ys else some false

theorem sameItems_map_some (elementEquals : Ref → Ref → Bool) (xs ys : List Ref) :
    sameItems elementEquals (xs.map some) (ys.map some) = some true ↔
      List.Forall₂ (fun x y => elementEquals x y = true) xs ys := by
  induction xs generalizing ys with
  | nil =>
    cases ys with
    | nil => exact iff_of_true rfl .nil
    | cons y ys => exact iff_of_false nofun nofun
  | cons x xs ih =>
    cases ys with
    | nil => exact iff_of_false nofun nofun
    | cons y ys =>
      rw [List.forall₂_cons, ← ih ys]
      change (if elementEquals x y = true then _ else some false) = some true ↔ _
      split
      · rename_i h
        exact ⟨fun hrest => ⟨h, hrest⟩, fun hrest => hrest.2⟩
      · rename_i h
        exact iff_of_false (by simp) fun hrest => h hrest.1

/-- The equality that stops at the first difference, and asks first whether the sequences are
identical. -/
def IterableEquality.inOrder : IterableEquality where
  equals elementEquals items elements1 elements2 :=
    if elements1 = elements2 then some true
    else sameItems elementEquals (items elements1) (items elements2)
  equals_iff elementEquals items elements1 elements2 xs ys hrefl hxs hys := by
    split
    · rename_i h
      have hsame : xs = ys := by
        rw [h, hys] at hxs
        exact (List.map_injective_iff.mpr (Option.some_injective Ref) hxs).symm
      exact iff_of_true rfl (hsame ▸ List.forall₂_same.mpr fun x _ => hrefl x)
    · rw [hxs, hys]
      exact sameItems_map_some elementEquals xs ys

namespace Heap

variable (heap : Heap) (equality : IterableEquality)

def commentEquals : Ref → Ref → Bool := sameMembers true fun r => (heap.comment r).members

def userInfoModelEquals : Ref → Ref → Bool :=
  sameMembers true fun r => (heap.userInfoModel r).members

def chatModelEquals : Ref → Ref → Bool := sameMembers true fun r => (heap.chatModel r).members

def authStateEquals : Ref → Ref → Bool := sameMembers true fun r => (heap.authState r).members

def thumbnailRequestEquals : Ref → Ref → Bool :=
  sameMembers true fun r => (heap.thumbnailRequest r).members

def requestEquals : Ref → Ref → Bool := sameMembers false fun r => (heap.request r).members

/-- The comparison of two sequences of comments. -/
def commentsEqual (comments comments' : Ref) : Option Bool :=
  equality.equals heap.commentEquals heap.comments comments comments'

def postWithCommentsEquals (this other : Ref) : Option Bool :=
  if sameMembers false (fun r => (heap.postWithComments r).members) this other then
    heap.commentsEqual equality (heap.postWithComments this).comments
      (heap.postWithComments other).comments
  else some false

/-- `==`, which may throw. -/
def equals (a b : ModelObject) : Option Bool :=
  if a.modelClass = b.modelClass then
    match a.modelClass with
    | .postWithComments => heap.postWithCommentsEquals equality a.ref b.ref
    | .comment => some (heap.commentEquals a.ref b.ref)
    | .userInfoModel => some (heap.userInfoModelEquals a.ref b.ref)
    | .chatModel => some (heap.chatModelEquals a.ref b.ref)
    | .authState => some (heap.authStateEquals a.ref b.ref)
    | .thumbnailRequest => some (heap.thumbnailRequestEquals a.ref b.ref)
    | .requestForPostAndComments => some (heap.requestEquals a.ref b.ref)
  else if a.modelClass.covariant then none else some false

/-- `hashCode`. -/
def hashCode (h : HashFunctions) (a : ModelObject) : Int :=
  match a.modelClass with
  | .postWithComments => h.hashAll (heap.postWithComments a.ref).members.hashed
  | .comment => h.hashAll (heap.comment a.ref).members.hashed
  | .userInfoModel => h.hashAll (heap.userInfoModel a.ref).members.hashed
  | .chatModel => h.hashAll (heap.chatModel a.ref).members.hashed
  | .authState => h.hash (heap.authState a.ref).members.hashed
  | .thumbnailRequest => h.hashAll (heap.thumbnailRequest a.ref).members.hashed
  | .requestForPostAndComments => h.hashAll (heap.request a.ref).members.hashed

/-- Equal objects have equal hash codes, whatever the hash codes of values and identities are. -/
def HashesAgree (a b : ModelObject) : Prop :=
  heap.equals equality a b = some true → ∀ h : HashFunctions, heap.hashCode h a = heap.hashCode h b

/-- Two objects that show one post with equal comments have one and the same sequence of them. -/
def SharesComments (a b : ModelObject) : Prop :=
  a.modelClass = .postWithComments → b.modelClass = .postWithComments →
    (heap.postWithComments a.ref).post = (heap.postWithComments b.ref).post →
    heap.commentsEqual equality (heap.postWithComments a.ref).comments
      (heap.postWithComments b.ref).comments = some true →
    (heap.postWithComments a.ref).comments = (heap.postWithComments b.ref).comments

end Heap

/-- Objects that compare equal have the same hashed members if these are among the compared ones. -/
theorem hashed_eq_of_sameMembers {asksIdentical : Bool} {members : Ref → Members}
    (hmembers : ∀ r r', (members r).compared = (members r').compared →
      (members r).hashed = (members r').hashed) {this other : Ref}
    (h : sameMembers asksIdentical members this other = true) :
    (members this).hashed = (members other).hashed := by
  simp only [sameMembers, Bool.or_eq_true, Bool.and_eq_true, decide_eq_true_eq] at h
  rcases h with ⟨-, rfl⟩ | hcompared
  · rfl
  · exact hmembers this other hcompared

/-- The members of a comment are hashed in another order than they are compared in. -/
theorem Comment.hashed_eq {a b : Comment} (h : a.members.compared = b.members.compared) :
    a.members.hashed = b.members.hashed := by
  simp only [members, List.cons.injEq, and_true] at h ⊢
  obtain ⟨hid, hcomment, hdate, hfrom, hon, hrepliedId, hrepliedName⟩ := h
  exact ⟨hid, hcomment, hdate, hfrom, hon, hrepliedName, hrepliedId⟩

section HashCodes

variable {heap : Heap} {equality : IterableEquality} {a b : ModelObject}

/-- Equal objects are of one class. -/
theorem Heap.modelClass_eq (heq : heap.equals equality a b = some true) :
    a.modelClass = b.modelClass := by
  unfold Heap.equals at heq
  split at heq
  · assumption
  · split at heq <;> cases heq

/-- Comments are equal if all of their fields are. -/
theorem Heap.commentEquals_iff {this other : Ref} :
    heap.commentEquals this other = true ↔ heap.comment this = heap.comment other := by
  simp only [Heap.commentEquals, sameMembers, Bool.or_eq_true, Bool.and_eq_true, decide_eq_true_eq]
  constructor
  · rintro (⟨-, rfl⟩ | h)
    · rfl
    · simp only [Comment.members, List.cons.injEq, DartValue.string.injEq, DartValue.dateTime.injEq,
        and_true] at h
      obtain ⟨hid, hcomment, hdate, hfrom, hon, hrepliedId, hrepliedName⟩ := h
      rw [Comment.mk.injEq]
      exact ⟨hid, hcomment, hdate, hfrom, hon, hrepliedName, hrepliedId⟩
  · intro h
    exact .inr (by rw [h])

/-- Sequences whose items are all there are equal if they hold the same comments. -/
theorem Heap.commentsEqual_iff {comments comments' : Ref} {xs ys : List Ref}
    (hxs : heap.comments comments = xs.map some) (hys : heap.comments comments' = ys.map some) :
    heap.commentsEqual equality comments comments' = some true ↔
      xs.map heap.comment = ys.map heap.comment := by
  have hrefl : ∀ x, heap.commentEquals x x = true := fun x => Heap.commentEquals_iff.mpr rfl
  rw [Heap.commentsEqual, equality.equals_iff _ _ hrefl hxs hys, ← List.forall₂_eq_eq_eq,
    List.forall₂_map_left_iff, List.forall₂_map_right_iff]
  simp only [Heap.commentEquals_iff]

/-- Equal objects of the other classes have equal hash codes. -/
theorem Heap.hashCode_eq (hclass : a.modelClass ≠ .postWithComments)
    (heq : heap.equals equality a b = some true) (h : HashFunctions) :
    heap.hashCode h a = heap.hashCode h b := by
  obtain ⟨modelClass, r⟩ := a
  obtain ⟨modelClass', r'⟩ := b
  obtain rfl : modelClass = modelClass' := Heap.modelClass_eq heq
  rw [Heap.equals, if_pos rfl] at heq
  cases modelClass with
  | postWithComments => exact absurd rfl hclass
  | comment =>
    exact congrArg h.hashAll (hashed_eq_of_sameMembers (fun _ _ => Comment.hashed_eq)
      (Option.some.inj heq))
  | userInfoModel =>
    exact congrArg h.hashAll (hashed_eq_of_sameMembers (fun _ _ => id) (Option.some.inj heq))
  | chatModel =>
    exact congrArg h.hashAll (hashed_eq_of_sameMembers (fun _ _ => id) (Option.some.inj heq))
  | authState =>
    exact congrArg h.hash (hashed_eq_of_sameMembers (fun _ _ => id) (Option.some.inj heq))
  | thumbnailRequest =>
    exact congrArg h.hashAll (hashed_eq_of_sameMembers (fun _ _ => id) (Option.some.inj heq))
  | requestForPostAndComments =>
    exact congrArg h.hashAll (hashed_eq_of_sameMembers (fun _ _ => id) (Option.some.inj heq))

/-- Two posts with comments are equal if they show one post with equal comments. -/
theorem Heap.postWithCommentsEquals_eq_some_true_iff {this other : Ref} :
    heap.postWithCommentsEquals equality this other = some true ↔
      (heap.postWithComments this).post = (heap.postWithComments other).post ∧
        heap.commentsEqual equality (heap.postWithComments this).comments
          (heap.postWithComments other).comments = some true := by
  have hpost : sameMembers false (fun r => (heap.postWithComments r).members) this other = true ↔
      (heap.postWithComments this).post = (heap.postWithComments other).post := by
    simp [sameMembers, PostWithCommentsFields.members]
  unfold Heap.postWithCommentsEquals
  split
  · rename_i h
    exact ⟨fun heq => ⟨hpost.mp h, heq⟩, fun heq => heq.2⟩
  · rename_i h
    exact iff_of_false (by simp) fun heq => h (hpost.mpr heq.1)

end HashCodes

/-- The hash codes of identities that tell objects apart. -/
def HashFunctions.identities : HashFunctions where
  hashCode
    | .object r => r
    | _ => 0
  combineAll hashes := hashes.foldr (· + ·) 0
  combine hashes := hashes.foldr (· + ·) 0

/-- With these hash codes, posts with comments that have the same one and show the same post have
the same sequence. -/
theorem Heap.sharesComments_of_hashCode {heap : Heap} (equality : IterableEquality)
    {a b : ModelObject} (h : heap.hashCode .identities a = heap.hashCode .identities b) :
    heap.SharesComments equality a b := by
  intro ha hb hpost _
  simp only [Heap.hashCode, ha, hb, HashFunctions.hashAll, HashFunctions.identities,
    PostWithCommentsFields.members, List.map_cons, List.map_nil, List.foldr_cons, List.foldr_nil,
    hpost, Int.add_zero] at h
  exact Int.ofNat_inj.mp (Int.add_left_cancel h)

section Tables

variable {Item : Type} {heap : Heap} {equality : IterableEquality}
  {table : List (ModelObject × Item)} {key : ModelObject}

/-- A table whose keys are of the other classes finds every equal key. A family of providers is such
a table, for requests as for thumbnails. -/
theorem Heap.isSome_lookup_iff (h : HashFunctions)
    (hclass : ∀ entry ∈ table, entry.1.modelClass ≠ .postWithComments) :
    (Hashing.lookup (fun a b => heap.equals equality a b = some true) (heap.hashCode h) table
      key).isSome = true ↔ ∃ entry ∈ table, heap.equals equality entry.1 key = some true := by
  rw [Hashing.isSome_lookup_iff]
  · simp only [decide_eq_true_eq]
  · intro entry hentry heq
    exact Heap.hashCode_eq (hclass entry hentry) (of_decide_eq_true heq) h

/-- A table of posts with comments may miss an equal one that has another sequence. -/
theorem Heap.lookup_eq_none (h : ∀ entry ∈ table, ¬ heap.SharesComments equality entry.1 key) :
    Hashing.lookup (fun a b => heap.equals equality a b = some true) (heap.hashCode .identities)
      table key = none :=
  Hashing.lookup_eq_none fun entry hentry hhash =>
    h entry hentry (Heap.sharesComments_of_hashCode equality hhash)

end Tables

/-- Two objects of model classes have equal hash codes if they are equal, except where they show one
post with equal comments in different sequences. -/
theorem Heap.hashesAgree_iff (heap : Heap) (equality : IterableEquality) (a b : ModelObject) :
    heap.HashesAgree equality a b ↔ heap.SharesComments equality a b := by
  constructor
  · intro hagree ha hb hpost hitems
    have heq : heap.equals equality a b = some true := by
      rw [Heap.equals, if_pos (ha.trans hb.symm), ha]
      exact Heap.postWithCommentsEquals_eq_some_true_iff.mpr ⟨hpost, hitems⟩
    exact Heap.sharesComments_of_hashCode equality (hagree heq .identities) ha hb hpost hitems
  · intro hshares heq h
    by_cases ha : a.modelClass = .postWithComments
    · have hb : b.modelClass = .postWithComments := (Heap.modelClass_eq heq).symm.trans ha
      rw [Heap.equals, if_pos (ha.trans hb.symm), ha] at heq
      obtain ⟨hpost, hitems⟩ := Heap.postWithCommentsEquals_eq_some_true_iff.mp heq
      have hcomments := hshares ha hb hpost hitems
      simp only [Heap.hashCode, ha, hb, PostWithCommentsFields.members]
      rw [hpost, hcomments]
    · exact Heap.hashCode_eq ha heq h

/-- Two objects that show one post, each with a sequence of its own of one comment. -/
def twoSequences : Heap where
  comment _ := ⟨"c", "", 0, "", "", "", ""⟩
  userInfoModel _ := ⟨"", "", none, none, none⟩
  chatModel _ := ⟨"", "", "", "", 0, [], [], [], [], [], []⟩
  authState _ := .unknown
  thumbnailRequest _ := ⟨0, .image⟩
  request _ := { postId := "" }
  postWithComments r := ⟨0, r⟩
  comments _ := [some 0]

/-- They are equal and have different hash codes. -/
theorem not_hashesAgree_of_two_sequences :
    ¬ twoSequences.HashesAgree .inOrder ⟨.postWithComments, 1⟩ ⟨.postWithComments, 2⟩ := by
  intro hagree
  exact absurd (hagree (by decide) .identities) (by decide)

end TekkGram
