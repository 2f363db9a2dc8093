import TekkGram.Database.Documents
import TekkGram.Feeds.Posts
import TekkGram.Posts.Operation

/-!
# Published posts

An upload that returns `true` has published a post of its own. Whatever edits come, it is on the
home tab with the settings that it was published with and with the message that was given to it
last.
-/

namespace TekkGram

open Interaction Async

/-- `allowsLikes`. -/
def Post.allowsLikes (post : Post) : Bool := (post.postSettings.lookup .allowLikes).getD false

/-- `allowsComments`. -/
def Post.allowsComments (post : Post) : Bool :=
  (post.postSettings.lookup .allowComments).getD false

/-- The settings of an upload. -/
def WriteOperation.postSettings : WriteOperation → Option (List (PostSettings × Bool))
  | upload _ _ _ postSettings _ _ => postSettings
  | uploadMultipleImageFiles _ _ postSettings _ _ => postSettings
  | _ => none

/-- The message of an upload. -/
def WriteOperation.postMessage : WriteOperation → String
  | upload _ _ message _ _ _ => message.getD ""
  | uploadMultipleImageFiles _ message _ _ _ => message.getD ""
  | _ => ""

/-- The message that an edit gives to its post. -/
def WriteOperation.newMessage : WriteOperation → Option String
  | editPost _ message => some message
  | editImagePost _ _ message _ _ => some message
  | _ => none

/-- The messages that were given to a post, in their order. -/
def newMessages (runs : List (Nat × WriteOperation)) (postId : PostId)
    (effects : List (Nat × Effect)) : List String :=
  effects.filterMap fun e => (e.2.edit .posts postId).bind fun _ =>
    runs[e.1]?.bind fun run => run.2.newMessage

/-- The upload in this place has published this post under this id, and the post is on the home tab
with its settings and the message that was given to it last. -/
structure Published (runs : List (Nat × WriteOperation)) (before after : Collection)
    (effects : List (Nat × Effect)) (i : Nat) (op : WriteOperation) (postId : PostId)
    (post : Post) : Prop where
  created : ∃ d, (i, .create .posts postId d) ∈ effects
  own : ∀ j d, (j, .create .posts postId d) ∈ effects → j = i
  new : before[postId]? = none
  stored : ∃ d : Doc, after[postId]? = some d ∧ Post.ofJson postId d = some post
  onHomeTab : ∃ tiles, PostsView.build (allPosts (Query.allPosts.snapshot after)) =
    some (.tiles tiles) ∧ some post ∈ tiles
  settings : op.postSettings = some post.postSettings
  message : post.message = (newMessages runs postId effects).getLast?.getD op.postMessage

section Edits

variable {runs : List (Nat × WriteOperation)} {effects : List (Nat × Effect)} {i : Nat}
  {e : Effect} {postId : PostId} {d fields : Doc} {post : Post} {op : WriteOperation}

theorem Effect.edit_eq_some {path : CollectionPath} {id : String}
    (h : e.edit path id = some fields) : e = .merge path id fields := by
  unfold Effect.edit at h
  split at h
  · split at h
    · rename_i hsame
      obtain ⟨rfl, rfl⟩ := hsame
      cases h
      rfl
    · cases h
  · cases h

theorem newMessages_snoc : newMessages runs postId (effects ++ [(i, e)]) =
    newMessages runs postId effects ++ ((e.edit .posts postId).bind fun _ =>
      runs[i]?.bind fun run => run.2.newMessage).toList := by
  rw [newMessages, List.filterMap_append, List.filterMap_cons]
  cases h : (e.edit .posts postId).bind fun _ => runs[i]?.bind fun run => run.2.newMessage <;>
    rfl

/-- One edit of a post gives it its message, and keeps the creation time and the settings. -/
theorem WriteOperation.Succeeds.ofJson_merge (h : op.Succeeds (.merge .posts postId fields))
    (hpost : Post.ofJson postId d = some post) : ∃ message post',
      op.newMessage = some message ∧ Post.ofJson postId (d.merge fields) = some post' ∧
      post'.message = message ∧ post'.createdAt = post.createdAt ∧
      post'.postSettings = post.postSettings := by
  cases h with
  | edited => exact ⟨_, _, rfl, Post.ofJson_merge_message hpost _, rfl, rfl, rfl⟩
  | mediaEdited lists =>
    exact ⟨_, _, rfl, Post.ofJson_merge_editedFields hpost _ _ _ lists, rfl, rfl, rfl⟩

/-- All edits of a post give it the last of their messages, and keep the creation time and the
settings. -/
theorem Post.ofJson_mergeAll
    (hsucceeds : ∀ e ∈ effects, ∃ run, runs[e.1]? = some run ∧ run.2.Succeeds e.2)
    (hpost : Post.ofJson postId d = some post) : ∃ post',
      Post.ofJson postId (d.mergeAll (editsOf .posts postId effects)) = some post' ∧
      post'.message = (newMessages runs postId effects).getLast?.getD post.message ∧
      post'.createdAt = post.createdAt ∧ post'.postSettings = post.postSettings := by
  induction effects using List.reverseRecOn with
  | nil => exact ⟨post, hpost, rfl, rfl, rfl⟩
  | append_singleton effects last ih =>
    obtain ⟨i, e⟩ := last
    obtain ⟨before, hbefore, hmessage, hcreated, hsettings⟩ := ih fun e he =>
      hsucceeds e (List.mem_append_left _ he)
    rw [editsOf_snoc, newMessages_snoc]
    cases hedit : e.edit .posts postId with
    | none =>
      rw [Option.toList_none, List.append_nil, Option.bind_none, Option.toList_none,
        List.append_nil]
      exact ⟨before, hbefore, hmessage, hcreated, hsettings⟩
    | some fields =>
      obtain ⟨run, hrun, hspec⟩ := hsucceeds (i, e)
        (List.mem_append_right _ (List.mem_singleton_self _))
      rw [Effect.edit_eq_some hedit] at hspec
      obtain ⟨message, after, hnew, hafter, hgiven, hcreated', hsettings'⟩ :=
        hspec.ofJson_merge hbefore
      rw [Option.toList_some, Doc.mergeAll_append, hrun, Option.bind_some, Option.bind_some, hnew,
        Option.toList_some, List.getLast?_concat]
      exact ⟨after, hafter, hgiven, hcreated'.trans hcreated, hsettings'.trans hsettings⟩

/-- An upload creates a post with its settings and its message. -/
theorem WriteOperation.Succeeds.ofJson_create (h : op.Succeeds (.create .posts postId d)) :
    ∃ t post, Post.ofJson postId d = some post ∧ post.createdAt = some t ∧
      op.postSettings = some post.postSettings ∧ post.message = op.postMessage := by
  cases h with
  | posted hfileType lists id t => exact ⟨t, _, Post.ofJson_postPayload .., rfl, rfl, rfl⟩
  | albumPosted lists id t => exact ⟨t, _, Post.ofJson_postPayload .., rfl, rfl, rfl⟩

end Edits

/-- A stored post with a creation time has a tile on the home tab. -/
theorem exists_tile {docs : Collection} {postId : PostId} {d : Doc} {post : Post} {t : Timestamp}
    (hd : docs[postId]? = some d) (hpost : Post.ofJson postId d = some post)
    (ht : post.createdAt = some t) :
    ∃ tiles, PostsView.build (allPosts (Query.allPosts.snapshot docs)) = some (.tiles tiles) ∧
      some post ∈ tiles := by
  have hcreated := (Post.ofJson_eq_some_iff.mp hpost).createdAt
  have hdated : (⟨postId, d⟩ : DocSnapshot).createdAt = some t := by
    rw [ht, Value.orElse] at hcreated
    split at hcreated
    · cases hcreated
    · obtain ⟨t', htime, hsame⟩ := Option.map_eq_some_iff.mp hcreated
      exact htime.trans hsame
  have hmem : DocSnapshot.committed ⟨postId, d⟩ ∈ Query.allPosts.snapshot docs :=
    List.mem_map_of_mem ((Query.mem_newestFirst rfl).mpr ⟨⟨hd, rfl⟩, hdated ▸ rfl⟩)
  have htile : some post ∈ (Query.allPosts.snapshot docs).map QueryDocumentSnapshot.post :=
    List.mem_map.mpr ⟨_, hmem, hpost⟩
  refine ⟨_, ?_, htile⟩
  rw [PostsView.build, allPosts, ListView.build_mapped, if_neg (List.ne_nil_of_mem htile)]

/-- An upload that has returned `true` has published a post. -/
theorem exists_published {runs : List (Nat × WriteOperation)} {n : Network}
    {moves : List DeviceMove} {P : DevicePool}
    (h : Pool.Steps Network.step (fun _ _ _ => True) (operationPool runs n) moves P) {i : Nat}
    {run : Nat × WriteOperation} (hrun : runs[i]? = some run)
    (hcreates : run.2.creates = some .posts)
    (hdone : P.threads[i]? = some (.done (.ok true, ()))) :
    ∃ postId post, Published runs (n.firestore .posts) (P.state.firestore .posts)
      (effectsIn runs moves) i run.2 postId post := by
  obtain ⟨e, he⟩ := (mem_of_ended h hdone).mp rfl
  obtain ⟨run', hrun', hspec⟩ := succeeds_of_mem h he
  obtain rfl := Option.some.inj (hrun.symm.trans hrun')
  obtain ⟨postId, d, rfl⟩ := hspec.exists_create hcreates
  obtain ⟨t, created, hcreated, ht, hsettings, hmessage⟩ := hspec.ofJson_create
  obtain ⟨post, hpost, hlast, hdate, hkept⟩ := Post.ofJson_mergeAll
    (fun e he => succeeds_of_mem h he) hcreated
  have hpath : ∀ groupChatId, CollectionPath.posts ≠ .chat groupChatId := nofun
  have haccounted := accounted_of_steps hpath h
  -- posts are not deleted by these operations
  have hstands : ¬ ∃ j, (j, Effect.erase .posts postId) ∈ effectsIn runs moves := by
    rintro ⟨j, hj⟩
    cases (deletedBy_of_erase h hj).1
  have hafter := (haccounted.kept postId d (.inr ⟨i, he⟩)).resolve_left hstands
  obtain ⟨hnew, hown⟩ := (haccounted.own i postId d he).resolve_left hstands
  exact ⟨postId, post, ⟨d, he⟩, hown, hnew, ⟨_, hafter, hpost⟩,
    exists_tile hafter hpost (hdate.trans ht), hsettings.trans (congrArg some hkept.symm),
    hmessage ▸ hlast⟩

/-- The operation in this place has returned `true`. -/
def returnedTrueAt (P : DevicePool) (i : Nat) : Bool :=
  P.threads[i]?.any fun p => match p with
    | .done (.ok returned, ()) => returned
    | _ => false

theorem returnedTrueAt_iff {P : DevicePool} {i : Nat} :
    returnedTrueAt P i = true ↔ P.threads[i]? = some (.done (.ok true, ())) := by
  constructor
  · intro h
    obtain ⟨p, hp, hreturned⟩ := (Option.any_eq_true ..).mp h
    match p, hreturned with
    | .done (.ok true, ()), _ => exact hp
  · intro h
    rw [returnedTrueAt, h]
    rfl

end TekkGram
