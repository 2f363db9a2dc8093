import TekkGram.Interaction.Pool
import TekkGram.Interaction.Since
import TekkGram.Interaction.Until
import TekkGram.Likes.LikeDislike
import TekkGram.Model.Effects
import TekkGram.Notifiers.Comments
import TekkGram.Posts.MediaExist

/-!
# Reactions to a post that is being deleted

The deletion of a post queries its comments and its likes once each, and deletes what it has found.
Comments and likes are added without a look at the post. Those added after the query of their
collection are found by nobody: they stay, unless a tap of their own user removes them.
-/

namespace TekkGram

open Interaction Async

/-- What other clients do to a post that is being deleted. -/
inductive Reaction where
  | comment (fromUserId : UserId) (text repliedUserName : String) (repliedUserId : UserId)
  | like (likedBy : UserId)
  deriving DecidableEq, Repr

/-- The run of a reaction to a post. -/
def Reaction.program (postId : PostId) :
    Reaction → Program (Fallible Exc Ans) (Except Exc Bool × Unit)
  | .comment fromUserId text repliedUserName repliedUserId =>
    SendCommentNotifier.sendComment fromUserId postId text repliedUserName repliedUserId ()
  | .like likedBy => likeDislikePost ⟨postId, likedBy⟩ ()

/-- The deletion of a post as the first of the threads, and the reactions to it as the others. -/
def deletionPool (w : World) (post : Post) (reactions : List Reaction) :
    Pool World (Fallible Exc Ans) (Except Exc Bool × Unit) :=
  ⟨w, DeletePostStateNotifier.deletePost post () :: reactions.map (Reaction.program post.postId)⟩

/-- Every call of the deletion succeeds. -/
def DeletionSucceeding (m : Move (Fallible Exc Ans)) : Prop := m.thread = 0 → Answered m.event

/-- No comment and no like of a post is stored. -/
def NoOrphans (postId : PostId) (w : World) : Prop :=
  ∀ path, path = .comments ∨ path = .likes → ∀ (id : String) (d : Doc),
    (w.firestore path)[id]? = some d → d.field FirebaseFieldName.postId ≠ .string postId

/-- The deletion has queried the documents of its post in this collection. -/
def DeletionQueried (postId : PostId) (path : CollectionPath)
    (moves : List (Move (Fallible Exc Ans))) : Prop :=
  Returned (Reads (DeletePostStateNotifier.ofPost postId path)) (eventsOf 0 moves)

/-- A document was added after the deletion had queried its collection, and is not deleted since. -/
def AddedLate (postId : PostId) (path : CollectionPath) (id : String) :
    List (Move (Fallible Exc Ans)) → Prop :=
  Since
    (fun before m => DeletionQueried postId path before ∧ Returned (Writes path id) [m.event])
    fun m => ¬ Returned (Erases path id) [m.event]

/-- A document on the post is stored under this id. -/
def StoredOn (postId : PostId) (path : CollectionPath) (w : World) (id : String) : Prop :=
  ∃ d, (w.firestore path)[id]? = some d ∧ d.field FirebaseFieldName.postId = .string postId

/-- The calls of reactions to a post. -/
@[simp] def Call.Reacts (postId : PostId) : Call → Prop
  | .setLoading _ _ => True
  | .now => True
  | .get _ => True
  | .delete _ _ => True
  | .add _ payload => payload.field FirebaseFieldName.postId = .string postId
  | _ => False

theorem Reaction.program_calls (postId : PostId) (r : Reaction) :
    (r.program postId).Calls (Call.Reacts postId) := by
  cases r with
  | comment fromUserId text repliedUserName repliedUserId =>
    have hbody : (SendCommentNotifier.sendComment fromUserId postId text repliedUserName
        repliedUserId).Calls (Call.Reacts postId) := by
      refine calls_bind (calls_call trivial) fun _ => calls_tryFinally ?_ (calls_call trivial)
      refine calls_tryCatch (calls_bind (calls_call ?_) fun _ => calls_pure) fun _ => calls_pure
      rfl
    exact hbody ()
  | like likedBy =>
    have hbody : (likeDislikePost ⟨postId, likedBy⟩).Calls (Call.Reacts postId) := by
      refine calls_bind (calls_call trivial) fun docs => ?_
      by_cases hdocs : docs = []
      · rw [if_pos hdocs]
        refine calls_bind (calls_call trivial) fun now => ?_
        refine calls_tryCatch (calls_bind (calls_call ?_) fun _ => calls_pure) fun _ => calls_pure
        rfl
      · rw [if_neg hdocs]
        refine calls_tryCatch (calls_bind ?_ fun _ => calls_pure) fun _ => calls_pure
        exact calls_forEach fun doc _ => calls_call trivial
    exact hbody ()

section Effects

variable {postId : PostId} {path : CollectionPath} {w w' : World} {id : String}

/-- A document on the post is stored after a reaction's call exactly when it was stored before and
not erased by it, or was written by it. -/
theorem storedOn_step {c : Call} {r : Fallible Exc Ans c} (hc : c.Reacts postId)
    (hstep : World.step w c r = some w') : StoredOn postId path w' id ↔
      (StoredOn postId path w id ∧ ¬ Returned (Erases path id) [⟨c, r⟩]) ∨
        Returned (Writes path id) [⟨c, r⟩] := by
  cases r with
  | error e =>
    rw [World.step_error hstep]
    simp
  | ok a =>
    simp only [returned_cons_ok, returned_nil, or_false]
    cases c with
    | setLoading n v =>
      cases hstep
      simp [StoredOn]
    | now =>
      cases hstep
      simp
    | get q =>
      simp only [World.step, World.perform] at hstep
      split at hstep <;> cases hstep
      simp
    | delete c id' =>
      cases hstep
      by_cases hpath : c = path
      · subst hpath
        simp only [StoredOn, World.eraseDoc_firestore, Function.update_self,
          Collection.getElem?_erase]
        by_cases hid : id' = id <;> simp [hid]
      · simp [StoredOn, Function.update_of_ne (Ne.symm hpath), hpath]
    | add c payload =>
      simp only [World.step, World.perform] at hstep
      split at hstep <;> cases hstep
      by_cases hpath : c = path
      · subst hpath
        have hfield : (payload.resolve a.commitTime).field FirebaseFieldName.postId =
            .string postId := by
          rw [Doc.field_resolve, hc, Value.resolve_string]
        simp only [StoredOn, World.setDoc_firestore, Function.update_self,
          Collection.getElem?_insert]
        by_cases hid : a.id = id
        · simp [hid, hfield]
        · simp [hid]
      · simp [StoredOn, Function.update_of_ne (Ne.symm hpath), hpath]
    | _ => exact hc.elim

/-- What is stored after the transaction that deletes these documents. -/
theorem storedOn_transaction {docs : List DocSnapshot} {t : Timestamp}
    (hstep : World.step w (.commit (docs.map fun doc => .delete path doc.id)) (.ok t) = some w') :
    StoredOn postId path w' id ↔ StoredOn postId path w id ∧ id ∉ docs.map (·.id) := by
  have hw' : w' = w.eraseDocs path (docs.map (·.id)) := by
    have hwrites := World.foldl_write_delete w t path (docs.map (·.id))
    rw [List.map_map] at hwrites
    rw [← hwrites]
    exact (Option.some.inj hstep).symm
  simp only [StoredOn, hw', World.eraseDocs_firestore, Function.update_self,
    Collection.getElem?_eraseAll]
  by_cases hid : id ∈ docs.map (·.id) <;> simp [hid]

end Effects

section History

variable {postId : PostId} {path : CollectionPath} {id : String}
  {moves : List (Move (Fallible Exc Ans))} {m : Move (Fallible Exc Ans)}

theorem deletionQueried_snoc : DeletionQueried postId path (moves ++ [m]) ↔
    DeletionQueried postId path moves ∨
      (m.thread = 0 ∧ Returned (Reads (DeletePostStateNotifier.ofPost postId path)) [m.event]) := by
  rw [DeletionQueried, eventsOf_append, returned_append]
  by_cases hm : m.thread = 0 <;> simp [DeletionQueried, eventsOf, hm]

theorem addedLate_snoc : AddedLate postId path id (moves ++ [m]) ↔
    (DeletionQueried postId path moves ∧ Returned (Writes path id) [m.event]) ∨
      (AddedLate postId path id moves ∧ ¬ Returned (Erases path id) [m.event]) := since_snoc

/-- Nothing is late before the deletion queries its collection. -/
theorem AddedLate.queried (h : AddedLate postId path id moves) :
    DeletionQueried postId path moves := by
  obtain ⟨before, m, after, rfl, ⟨hqueried, -⟩, -⟩ := h
  rw [DeletionQueried, eventsOf_append, returned_append]
  exact .inl hqueried

end History

section Sweep

variable {postId : PostId} {path : CollectionPath} {w w' : World}
  {moves : List (Move (Fallible Exc Ans))}
  {p : Program (Fallible Exc Ans) (Except Exc Bool × Unit)}

/-- The program deletes these documents in one transaction, and then spares the collection. -/
def Deletes (path : CollectionPath) (docs : List DocSnapshot)
    (p : Program (Fallible Exc Ans) (Except Exc Bool × Unit)) : Prop :=
  ∃ next, p = .call (.commit (docs.map fun doc => .delete path doc.id)) next ∧
    ∀ t, (next (.ok t)).Calls (Call.Spares path)

/-- The program queries the documents of a post in a collection and deletes what it has found. -/
def Sweeps (postId : PostId) (path : CollectionPath)
    (p : Program (Fallible Exc Ans) (Except Exc Bool × Unit)) : Prop :=
  ∃ next, p = .call (.get (DeletePostStateNotifier.ofPost postId path)) next ∧
    ∀ docs, Deletes path docs (next (.ok docs))

/-- Where the deletion of a post is with one collection, and what is stored there meanwhile. -/
inductive SweepPhase (postId : PostId) (path : CollectionPath)
    (moves : List (Move (Fallible Exc Ans))) (w : World)
    (p : Program (Fallible Exc Ans) (Except Exc Bool × Unit)) : Prop
  | before (q : Program (Fallible Exc Ans) (Except Exc Bool × Unit))
      (hqueried : ¬ DeletionQueried postId path moves)
      (huntil : Program.Until Answered (Call.Spares path) q p) (hsweeps : Sweeps postId path q)
  | queried (docs : List DocSnapshot) (hqueried : DeletionQueried postId path moves)
      (hdeletes : Deletes path docs p)
      (hstored : ∀ id, StoredOn postId path w id →
        id ∈ docs.map (·.id) ∨ AddedLate postId path id moves)
      (hlate : ∀ id, AddedLate postId path id moves → StoredOn postId path w id)
  | deleted (hqueried : DeletionQueried postId path moves) (hspares : p.Calls (Call.Spares path))
      (hstored : ∀ id, StoredOn postId path w id ↔ AddedLate postId path id moves)

/-- The deletion's own calls take it through its phases. -/
theorem SweepPhase.deletion {c : Call} {next : Fallible Exc Ans c → Program (Fallible Exc Ans) _}
    (h : SweepPhase postId path moves w (.call c next)) {r : Fallible Exc Ans c}
    (hr : Answered (⟨c, r⟩ : AppEvent)) (hstep : World.step w c r = some w') :
    SweepPhase postId path (moves ++ [⟨0, ⟨c, r⟩⟩]) w' (next r) := by
  cases h with
  | before q hqueried huntil hsweeps =>
    cases huntil with
    | here =>
      -- the query: what it misses is stored later
      obtain ⟨next', hcall, hdeletes⟩ := hsweeps
      cases hcall
      obtain ⟨docs, rfl⟩ : ∃ docs, r = .ok docs := hr
      simp only [World.step, World.perform] at hstep
      split at hstep <;> cases hstep
      rename_i hdocs
      refine .queried docs (deletionQueried_snoc.mpr (.inr ⟨rfl, by simp⟩)) (hdeletes docs)
        (fun id hid => .inl ?_) fun id hlate => ?_
      · rw [hdocs]
        exact DeletePostStateNotifier.mem_eval_ofPost.mpr hid
      · rcases addedLate_snoc.mp hlate with ⟨hbefore, -⟩ | ⟨hbefore, -⟩
        · exact absurd hbefore hqueried
        · exact absurd hbefore.queried hqueried
    | call hc hnext =>
      refine .before q (fun hnow => ?_) (hnext r hr) hsweeps
      rcases deletionQueried_snoc.mp hnow with hbefore | ⟨-, hread⟩
      · exact hqueried hbefore
      · exact not_returned_of_call (fun a => hc.not_reads rfl a) hread
  | queried docs hqueried hdeletes hstored hlate =>
    -- the transaction: what is left was added late
    obtain ⟨next', hcall, hspares⟩ := hdeletes
    cases hcall
    obtain ⟨t, rfl⟩ : ∃ t, r = .ok t := hr
    have herases : ∀ id, Returned (Erases path id)
        ([⟨.commit (docs.map fun doc => .delete path doc.id), .ok t⟩] : List AppEvent) ↔
          id ∈ docs.map (·.id) := by
      intro id
      simp
    refine .deleted (deletionQueried_snoc.mpr (.inl hqueried)) (hspares t) fun id => ?_
    rw [storedOn_transaction hstep, addedLate_snoc, herases]
    constructor
    · rintro ⟨hid, hnot⟩
      exact .inr ⟨(hstored id hid).resolve_left hnot, hnot⟩
    · rintro (⟨-, hwritten⟩ | ⟨hid, hnot⟩)
      · simp at hwritten
      · exact ⟨hlate id hid, hnot⟩
  | deleted hqueried hspares hstored =>
    refine .deleted (deletionQueried_snoc.mpr (.inl hqueried)) (hspares.2 r) fun id => ?_
    have hsame : StoredOn postId path w' id ↔ StoredOn postId path w id := by
      rw [StoredOn, hspares.1.firestore hstep, StoredOn]
    rw [hsame, hstored, addedLate_snoc]
    constructor
    · intro hlate
      exact .inr ⟨hlate, not_returned_of_call fun a => hspares.1.not_erases id a⟩
    · rintro (⟨-, hwritten⟩ | ⟨hlate, -⟩)
      · exact absurd hwritten (not_returned_of_call fun a => hspares.1.not_writes id a)
      · exact hlate

/-- A call of a reaction keeps the deletion in its phase. -/
theorem SweepPhase.reaction (h : SweepPhase postId path moves w p) {i : Nat} (hi : i ≠ 0)
    {c : Call} {r : Fallible Exc Ans c} (hc : c.Reacts postId)
    (hstep : World.step w c r = some w') :
    SweepPhase postId path (moves ++ [⟨i, ⟨c, r⟩⟩]) w' p := by
  have hqueries : DeletionQueried postId path (moves ++ [⟨i, ⟨c, r⟩⟩]) ↔
      DeletionQueried postId path moves := by
    rw [deletionQueried_snoc]
    simp [hi]
  cases h with
  | before q hqueried huntil hsweeps =>
    exact .before q (fun hnow => hqueried (hqueries.mp hnow)) huntil hsweeps
  | queried docs hqueried hdeletes hstored hlate =>
    refine .queried docs (hqueries.mpr hqueried) hdeletes (fun id hid => ?_) fun id hid => ?_
    · rw [addedLate_snoc]
      rcases (storedOn_step hc hstep).mp hid with ⟨hbefore, hkept⟩ | hwritten
      · exact (hstored id hbefore).imp_right fun hlate => .inr ⟨hlate, hkept⟩
      · exact .inr (.inl ⟨hqueried, hwritten⟩)
    · rw [storedOn_step hc hstep]
      rcases addedLate_snoc.mp hid with ⟨-, hwritten⟩ | ⟨hbefore, hkept⟩
      · exact .inr hwritten
      · exact .inl ⟨hlate id hbefore, hkept⟩
  | deleted hqueried hspares hstored =>
    refine .deleted (hqueries.mpr hqueried) hspares fun id => ?_
    rw [storedOn_step hc hstep, addedLate_snoc, hstored]
    constructor
    · rintro (hbefore | hwritten)
      · exact .inr hbefore
      · exact .inl ⟨hqueried, hwritten⟩
    · rintro (⟨-, hwritten⟩ | hbefore)
      · exact .inr hwritten
      · exact .inl hbefore

/-- What is left of the deletion after a collection is swept spares it. -/
theorem deletePost_sweeps (post : Post) (hpath : path = .comments ∨ path = .likes) :
    ∃ q, Program.Until Answered (Call.Spares path) q (DeletePostStateNotifier.deletePost post ()) ∧
      Sweeps post.postId path q := by
  have hobject : ∀ ref : Reference, Program.Until Answered (Call.Spares path) (.done (.ok (), ()))
      ((await (.deleteObject ref) : Action Unit _) ()) := fun ref =>
    until_call Ans (.deleteObject ref) trivial ()
  have hmedia : Program.Until Answered (Call.Spares path) (.done (.ok (), ()))
      (DeletePostStateNotifier.deleteMedia post ()) :=
    until_bind (until_forEach fun id _ => hobject _) (until_forEach fun id _ => hobject _)
  have hdocuments : Program.Until Answered (Call.Spares path)
      (DeletePostStateNotifier.deleteDocuments post ())
      (DeletePostStateNotifier.deleteAll post ()) :=
    until_bind (until_call Ans (.setLoading .deletePost true) trivial ()) (until_bind hmedia .here)
  have hlast : (DeletePostStateNotifier.deleteDocument post).Calls (Call.Spares path) := by
    have hposts : CollectionPath.posts ≠ path := by
      rcases hpath with rfl | rfl <;> decide
    refine calls_bind (calls_call hposts) fun docs => calls_bind ?_ fun _ => calls_pure
    exact calls_forEach fun doc _ => calls_call hposts
  have hend : ∀ {m : Action Unit Bool}, m.Calls (Call.Spares path) →
      (tryFinally (tryCatch m fun _ => pure false)
        (await (.setLoading .deletePost false))).Calls (Call.Spares path) := fun hm =>
    calls_tryFinally (calls_tryCatch hm fun _ => calls_pure) (calls_call trivial)
  rcases hpath with rfl | rfl
  · refine ⟨_, until_tryFinally (until_tryCatch hdocuments), _, rfl, fun docs => ?_⟩
    refine ⟨_, rfl, fun t => ?_⟩
    have hlikes : (DeletePostStateNotifier.deleteAllDocuments post.postId .likes).Calls
        (Call.Spares .comments) := by
      refine calls_bind (calls_call nofun) fun docs => calls_bind ?_ fun _ => calls_pure
      refine calls_call fun write hwrite => ?_
      obtain ⟨doc, -, rfl⟩ := List.mem_map.mp hwrite
      exact nofun
    exact hend (calls_bind hlikes fun _ => hlast) ()
  · have hcomments : Program.Until Answered (Call.Spares .likes)
        ((do
          DeletePostStateNotifier.deleteAllDocuments post.postId .likes
          DeletePostStateNotifier.deleteDocument post : Action Unit Bool) ())
        (DeletePostStateNotifier.deleteDocuments post ()) := by
      refine .call nofun fun r hr => ?_
      obtain ⟨docs, rfl⟩ : ∃ docs, r = .ok docs := hr
      refine .call (fun write hwrite => ?_) fun r hr => ?_
      · obtain ⟨doc, -, rfl⟩ := List.mem_map.mp hwrite
        exact nofun
      · obtain ⟨t, rfl⟩ : ∃ t, r = .ok t := hr
        exact .here
    refine ⟨_, until_tryFinally (until_tryCatch (hdocuments.trans hcomments)), _, rfl, fun docs =>
      ⟨_, rfl, fun t => ?_⟩⟩
    exact hend hlast ()

end Sweep

/-- Along an interleaving the deletion is in one of its phases with a collection, and the other
threads are reactions. -/
structure SweepInvariant (postId : PostId) (path : CollectionPath)
    (moves : List (Move (Fallible Exc Ans)))
    (P : Pool World (Fallible Exc Ans) (Except Exc Bool × Unit)) : Prop where
  deletion : ∃ p, P.threads[0]? = some p ∧ SweepPhase postId path moves P.state p
  reactions : ∀ i p, i ≠ 0 → P.threads[i]? = some p → p.Calls (Call.Reacts postId)

theorem SweepInvariant.init (w : World) (post : Post) (reactions : List Reaction)
    {path : CollectionPath} (hpath : path = .comments ∨ path = .likes) :
    SweepInvariant post.postId path [] (deletionPool w post reactions) := by
  constructor
  · obtain ⟨q, huntil, hsweeps⟩ := deletePost_sweeps post hpath
    exact ⟨_, rfl, .before q (by simp [DeletionQueried]) huntil hsweeps⟩
  · intro i p hi hp
    obtain ⟨j, rfl⟩ := Nat.exists_eq_succ_of_ne_zero hi
    obtain ⟨reaction, -, rfl⟩ := List.mem_map.mp (List.mem_of_getElem? hp)
    exact reaction.program_calls post.postId

/-- One move keeps the invariant. -/
theorem SweepInvariant.step {postId : PostId} {path : CollectionPath}
    {moves : List (Move (Fallible Exc Ans))} {m : Move (Fallible Exc Ans)}
    {P P' : Pool World (Fallible Exc Ans) (Except Exc Bool × Unit)}
    (h : SweepInvariant postId path moves P) (hguard : DeletionSucceeding m)
    (hstep : Pool.Step World.step P m P') : SweepInvariant postId path (moves ++ [m]) P' := by
  cases hstep with
  | @mk w w' threads i c next r hthread haccept =>
    have hlt : i < threads.length := (List.getElem?_eq_some_iff.mp hthread).1
    obtain ⟨p, hp, hphase⟩ := h.deletion
    by_cases hi : i = 0
    · subst hi
      obtain rfl : p = .call c next := Option.some.inj (hp.symm.trans hthread)
      refine ⟨⟨next r, by simp [hlt], hphase.deletion (hguard rfl) haccept⟩, fun j q hj hq => ?_⟩
      rcases getElem?_set_eq_some hq with ⟨rfl, -⟩ | ⟨-, hold⟩
      · exact absurd rfl hj
      · exact h.reactions j q hj hold
    · have hcalls := h.reactions i _ hi hthread
      refine ⟨⟨p, ?_, hphase.reaction hi hcalls.1 haccept⟩, fun j q hj hq => ?_⟩
      · rw [List.getElem?_set_ne hi]
        exact hp
      · rcases getElem?_set_eq_some hq with ⟨-, rfl⟩ | ⟨-, hold⟩
        · exact hcalls.2 r
        · exact h.reactions j q hj hold

/-- Once a deletion in which every call succeeded and all reactions to its post have completed, no
comment and no like of the post is stored exactly when every one that was added after the deletion
had queried its collection was deleted again. -/
theorem noOrphans_iff_of_steps (post : Post) (reactions : List Reaction) {w : World}
    {moves : List (Move (Fallible Exc Ans))}
    {P : Pool World (Fallible Exc Ans) (Except Exc Bool × Unit)}
    (h : Pool.Steps World.step (fun _ _ m => DeletionSucceeding m)
      (deletionPool w post reactions) moves P)
    (hdone : ∀ p ∈ P.threads, ∃ out, p = .done out) :
    NoOrphans post.postId P.state ↔ ∀ path, path = .comments ∨ path = .likes →
      ∀ id, ¬ AddedLate post.postId path id moves := by
  have hswept : ∀ path, path = .comments ∨ path = .likes → ∀ id,
      StoredOn post.postId path P.state id ↔ AddedLate post.postId path id moves := by
    intro path hpath
    obtain ⟨p, hp, hphase⟩ := h.invariant (SweepInvariant post.postId path)
      (.init w post reactions hpath) (fun _ _ _ _ hinv hguard hstep => hinv.step hguard hstep)
      |>.deletion
    obtain ⟨out, rfl⟩ := hdone p (List.mem_of_getElem? hp)
    cases hphase with
    | before q _ huntil hsweeps =>
      obtain ⟨next, rfl, -⟩ := hsweeps
      cases huntil
    | queried docs _ hdeletes =>
      obtain ⟨next, hcall, -⟩ := hdeletes
      cases hcall
    | deleted _ _ hstored => exact hstored
  constructor
  · intro hnone path hpath id hlate
    obtain ⟨d, hd, hfield⟩ := (hswept path hpath id).mpr hlate
    exact hnone path hpath id d hd hfield
  · intro hlate path hpath id d hd hfield
    exact hlate path hpath id ((hswept path hpath id).mp ⟨d, hd, hfield⟩)

/-- The test for a deletion whose calls succeed. -/
def deletionSucceeds (m : Move (Fallible Exc Ans)) : Bool := m.thread != 0 || answered m.event

theorem deletionSucceeding_of_test (m : Move (Fallible Exc Ans)) (h : deletionSucceeds m = true) :
    DeletionSucceeding m := by
  intro hm
  simpa [deletionSucceeds, hm, answered_iff] using h

/-- The test for a post without comments and likes. -/
def noOrphans (postId : PostId) (w : World) : Bool :=
  [CollectionPath.comments, .likes].all fun path =>
    (w.firestore path).toList.all fun kv => kv.2.field FirebaseFieldName.postId ≠ .string postId

theorem noOrphans_iff {postId : PostId} {w : World} :
    noOrphans postId w = true ↔ NoOrphans postId w := by
  simp only [noOrphans, List.all_eq_true, decide_eq_true_eq, Prod.forall,
    Std.ExtTreeMap.mem_toList_iff_getElem?_eq_some]
  simp [NoOrphans]

/-- A comment that is added before the query is deleted together with its post. -/
theorem noOrphans_iff_of_steps_early_comment :
    ∃ w moves P, uploadedPicture.ReadFrom w ∧
      Pool.Steps World.step (fun _ _ m => DeletionSucceeding m)
        (deletionPool w uploadedPicture [.comment "v" "nice" "" ""]) moves P ∧
      NoOrphans uploadedPicture.postId P.state ∧
      ∀ path, path = .comments ∨ path = .likes → ∀ id,
        ¬ AddedLate uploadedPicture.postId path id moves := by
  have hexec : (uploadPicture.program.exec World.step World.working 0 World.initial).any
      (fun r => r.2.2.postAt "11" = some uploadedPicture &&
        (Pool.exec World.step World.working (fun _ m => deletionSucceeds m)
          [1, 1, 0, 0, 0, 0, 1, 0, 0, 0, 0, 0, 0] []
          (deletionPool r.2.2 uploadedPicture [.comment "v" "nice" "" ""])).any fun r' =>
            r'.2.threads.all Program.isDone && noOrphans "11" r'.2.state) = true := by
    decide +kernel
  obtain ⟨tr, out, w, -, hcheck⟩ := Program.exec_any hexec
  obtain ⟨hstored, hcheck⟩ := (Bool.and_eq_true _ _).mp hcheck
  obtain ⟨moves, P, hsteps, htest⟩ := Pool.exec_any
    (fun _ _ m h => deletionSucceeding_of_test m h) hcheck
  obtain ⟨hdone, hnone⟩ := (Bool.and_eq_true _ _).mp htest
  have hnone : NoOrphans uploadedPicture.postId P.state := noOrphans_iff.mp hnone
  refine ⟨w, moves, P, uploadedPicture.readFrom_of_postAt (of_decide_eq_true hstored), hsteps,
    hnone, (noOrphans_iff_of_steps uploadedPicture _ hsteps fun p hp => ?_).mp hnone⟩
  exact Program.exists_of_isDone (List.all_eq_true.mp hdone p hp)

/-- A comment that is added between the query for the comments and their deletion stays. -/
theorem not_noOrphans_of_late_comment :
    ¬ ∀ (post : Post) (reactions : List Reaction) w moves P, post.ReadFrom w →
      Pool.Steps World.step (fun _ _ m => DeletionSucceeding m)
        (deletionPool w post reactions) moves P →
      (∀ p ∈ P.threads, ∃ out, p = .done out) → NoOrphans post.postId P.state := by
  intro hall
  have hexec : (uploadPicture.program.exec World.step World.working 0 World.initial).any
      (fun r => r.2.2.postAt "11" = some uploadedPicture &&
        (Pool.exec World.step World.working (fun _ m => deletionSucceeds m)
          [0, 0, 0, 0, 1, 1, 1, 0, 0, 0, 0, 0, 0] []
          (deletionPool r.2.2 uploadedPicture [.comment "v" "nice" "" ""])).any fun r' =>
            r'.2.threads.all Program.isDone && !noOrphans "11" r'.2.state) = true := by
    decide +kernel
  obtain ⟨tr, out, w, -, hcheck⟩ := Program.exec_any hexec
  obtain ⟨hstored, hcheck⟩ := (Bool.and_eq_true _ _).mp hcheck
  obtain ⟨moves, P, hsteps, htest⟩ := Pool.exec_any
    (fun _ _ m h => deletionSucceeding_of_test m h) hcheck
  obtain ⟨hdone, horphan⟩ := (Bool.and_eq_true _ _).mp htest
  have hnone := hall uploadedPicture _ w moves P
    (uploadedPicture.readFrom_of_postAt (of_decide_eq_true hstored)) hsteps
    fun p hp => Program.exists_of_isDone (List.all_eq_true.mp hdone p hp)
  rw [show uploadedPicture.postId = "11" from rfl, ← noOrphans_iff] at hnone
  simp [hnone] at horphan

end TekkGram
