import Mathlib.Data.Set.Card
import TekkGram.Interaction.Pool
import TekkGram.Model.Rules

/-!
# Liking and disliking a post

A tap on the like button starts a run of its own: it reads the user's likes of the
post and then either deletes the likes it has read or adds a new one. The stages of a run
name what is left of it after each call.
-/

namespace TekkGram

open Interaction Async

/-- A tap of a user on the like button of a post. -/
structure LikeDislikeRequest where
  postId : PostId
  likedBy : UserId
  deriving DecidableEq, Repr

namespace LikeDislikeRequest

/-- The likes of this user on this post. -/
def query (request : LikeDislikeRequest) : Query :=
  { collection := .likes
    filters := [(FirebaseFieldName.postId, .string request.postId),
      (FirebaseFieldName.userId, .string request.likedBy)] }

/-- Delete the likes that were read. -/
def deleteLikes (docs : List DocSnapshot) : Action Unit Bool :=
  tryCatch
    (do
      forEach docs fun doc => await (.delete .likes doc.id)
      return true)
    fun _ => return false

/-- Add the like with the time of the tap. -/
def addLike (request : LikeDislikeRequest) (date : DateTime) : Action Unit Bool :=
  tryCatch
    (do
      let _ ← await (.add .likes (like request.postId request.likedBy date))
      return true)
    fun _ => return false

/-- Post a like object. -/
def postLike (request : LikeDislikeRequest) : Action Unit Bool := do
  let now ← await .now
  addLike request now

end LikeDislikeRequest

open LikeDislikeRequest

/-- `likeDislikePostProvider`. -/
def likeDislikePost (request : LikeDislikeRequest) : Action Unit Bool := do
  let docs ← await (.get request.query)
  if docs = [] then postLike request else deleteLikes docs

/-- The likes of a post. -/
def postLikes (postId : PostId) : Query :=
  { collection := .likes, filters := [(FirebaseFieldName.postId, .string postId)] }

/-- The count that `postLikesCountProvider` emits for a snapshot of the likes of a post. -/
def postLikesCount (docs : List DocSnapshot) : Nat := docs.length

/-- What is left of a run. -/
inductive Stage where
  | reading
  | deleting (docs : List DocSnapshot)
  | dating
  | adding (date : DateTime)
  | ended (outcome : Except Exc Bool)

/-- The rest of the program of a run. -/
def Stage.program (request : LikeDislikeRequest) :
    Stage → Program (Fallible Exc Ans) (Except Exc Bool × Unit)
  | .reading => likeDislikePost request ()
  | .deleting docs => deleteLikes docs ()
  | .dating => postLike request ()
  | .adding date => addLike request date ()
  | .ended outcome => .done (outcome, ())

/-- A run that has read no like and has not added one yet. -/
@[simp] def Stage.Adds : Stage → Prop
  | .dating => True
  | .adding _ => True
  | _ => False

/-- The next stage of a run after a call. -/
inductive Stage.Next (request : LikeDislikeRequest) : Stage → AppEvent → Stage → Prop
  | readFailed (e : Exc) :
      Next request .reading ⟨.get request.query, .error e⟩ (.ended (.error e))
  | readNone : Next request .reading ⟨.get request.query, .ok []⟩ .dating
  | readLikes (docs : List DocSnapshot) (hdocs : docs ≠ []) :
      Next request .reading ⟨.get request.query, .ok docs⟩ (.deleting docs)
  | deleteFailed (doc : DocSnapshot) (docs : List DocSnapshot) (e : Exc) :
      Next request (.deleting (doc :: docs)) ⟨.delete .likes doc.id, .error e⟩ (.ended (.ok false))
  | deleted (doc : DocSnapshot) (docs : List DocSnapshot) :
      Next request (.deleting (doc :: docs)) ⟨.delete .likes doc.id, .ok ()⟩ (.deleting docs)
  | dateFailed (e : Exc) : Next request .dating ⟨.now, .error e⟩ (.ended (.error e))
  | dated (date : DateTime) : Next request .dating ⟨.now, .ok date⟩ (.adding date)
  | addFailed (date : DateTime) (e : Exc) :
      Next request (.adding date)
        ⟨.add .likes (like request.postId request.likedBy date), .error e⟩ (.ended (.ok false))
  | added (date : DateTime) (doc : Added) :
      Next request (.adding date)
        ⟨.add .likes (like request.postId request.likedBy date), .ok doc⟩ (.ended (.ok true))

/-- A run moves from stage to stage: after any reply to the next call of a stage, what is left
is the program of the next stage. -/
theorem Stage.next_of_call {request : LikeDislikeRequest} {stage : Stage} {c : Call}
    {next : Fallible Exc Ans c → Program (Fallible Exc Ans) (Except Exc Bool × Unit)}
    (h : stage.program request = .call c next) (r : Fallible Exc Ans c) :
    ∃ stage', Stage.Next request stage ⟨c, r⟩ stage' ∧ next r = stage'.program request := by
  cases stage with
  | reading =>
    cases h
    cases r with
    | error e => exact ⟨_, .readFailed e, rfl⟩
    | ok docs =>
      by_cases hdocs : docs = []
      · subst hdocs
        exact ⟨_, .readNone, rfl⟩
      · refine ⟨_, .readLikes docs hdocs, ?_⟩
        simp [Stage.program, hdocs]
  | deleting docs =>
    cases docs with
    | nil => cases h
    | cons doc docs =>
      cases h
      cases r with
      | error e => exact ⟨_, .deleteFailed doc docs e, rfl⟩
      | ok _ => exact ⟨_, .deleted doc docs, rfl⟩
  | dating =>
    cases h
    cases r with
    | error e => exact ⟨_, .dateFailed e, rfl⟩
    | ok date => exact ⟨_, .dated date, rfl⟩
  | adding date =>
    cases h
    cases r with
    | error e => exact ⟨_, .addFailed date e, rfl⟩
    | ok doc => exact ⟨_, .added date doc, rfl⟩
  | ended outcome => cases h

end TekkGram
