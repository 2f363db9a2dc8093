import TekkGram.Interaction.Since
import TekkGram.Likes.LikeDislike
import TekkGram.Model.Working

/-!
# At most one like per user and post

A run adds a like when it has read none. Other runs for the same user and post may add theirs
between its read and its own add, and nothing in the code looks again. Two likes of one
user are stored exactly when a run's add returns while such a like is still stored.
-/

namespace TekkGram

open Interaction Async

/-- Taps under way, over the shared world. -/
abbrev LikePool := Pool World (Fallible Exc Ans) (Except Exc Bool × Unit)

/-- A move of one tap. -/
abbrev LikeMove := Move (Fallible Exc Ans)

/-- The run of a tap that was not started yet. -/
def likeRun (request : LikeDislikeRequest) :
    Program (Fallible Exc Ans) (Except Exc Bool × Unit) := Stage.reading.program request

/-- Two documents are likes of the same user on the same post. -/
def SameLike (d d' : Doc) : Prop :=
  d.field FirebaseFieldName.postId = d'.field FirebaseFieldName.postId ∧
    d.field FirebaseFieldName.userId = d'.field FirebaseFieldName.userId

instance (d d' : Doc) : Decidable (SameLike d d') := inferInstanceAs (Decidable (_ ∧ _))

theorem SameLike.symm {d d' : Doc} (h : SameLike d d') : SameLike d' d :=
  ⟨h.1.symm, h.2.symm⟩

/-- No two likes are of the same user on the same post. -/
def AtMostOneLike (w : World) : Prop := (w.firestore .likes).AtMostOne SameLike

/-- The users who like a post. -/
def usersWhoLike (w : World) (postId : PostId) : Set Value :=
  {user | ∃ (id : String) (d : Doc), (w.firestore .likes)[id]? = some d ∧
    d.field FirebaseFieldName.postId = .string postId ∧
    d.field FirebaseFieldName.userId = user}

/-- A thread has moved, and after one of its moves this like was added. -/
def AddedSince (moves : List LikeMove) (i : Nat) (id : String) : Prop :=
  After (fun m => m.thread = i) (fun m => Returned (Writes .likes id) [m.event]) moves

/-- An add of a like returns only when no like of the same user on the same post that was added
since its run started is still stored. -/
def AddsAlone (moves : List LikeMove) (P : LikePool) (m : LikeMove) : Prop :=
  ∀ (payload : Doc) (added : Added), m.event = ⟨.add .likes payload, .ok added⟩ →
    ∀ (id : String) (d : Doc), (P.state.firestore .likes)[id]? = some d → SameLike d payload →
      ¬ AddedSince moves m.thread id

/-- The document written for a like is a like of the same user on the same post. -/
theorem sameLike_resolve {d : Doc} {t : Timestamp} {postId : PostId} {likedBy : UserId}
    {date : DateTime} :
    SameLike d ((like postId likedBy date).resolve t) ↔
      d.field FirebaseFieldName.postId = .string postId ∧
        d.field FirebaseFieldName.userId = .string likedBy := Iff.rfl

theorem sameLike_like {d : Doc} {postId : PostId} {likedBy : UserId} {date : DateTime} :
    SameLike d (like postId likedBy date) ↔
      d.field FirebaseFieldName.postId = .string postId ∧
        d.field FirebaseFieldName.userId = .string likedBy := Iff.rfl

/-- A run that reads its likes reads every one that is stored. -/
theorem LikeDislikeRequest.mem_query {request : LikeDislikeRequest} {docs : Collection}
    {id : String} {d : Doc} :
    (⟨id, d⟩ : DocSnapshot) ∈ request.query.eval docs ↔ docs[id]? = some d ∧
      d.field FirebaseFieldName.postId = .string request.postId ∧
        d.field FirebaseFieldName.userId = .string request.likedBy := by
  rw [Query.mem_eval_iff rfl]
  simp [LikeDislikeRequest.query, Query.selects]

section Collection

variable {w w' : World}

/-- Fewer likes cannot break the bound. -/
theorem AtMostOneLike.of_subset (h : AtMostOneLike w)
    (hsub : ∀ (id : String) (d : Doc), (w'.firestore .likes)[id]? = some d →
      (w.firestore .likes)[id]? = some d) : AtMostOneLike w' :=
  Collection.AtMostOne.of_subset h hsub

/-- A new like keeps the bound exactly when no like of the same user on the same post is
stored. -/
theorem AtMostOneLike.setDoc_iff (h : AtMostOneLike w) {new : String} {doc : Doc}
    (hnew : new ∉ w.firestore .likes) :
    AtMostOneLike (w.setDoc .likes new doc) ↔
      ∀ (id : String) (d : Doc), (w.firestore .likes)[id]? = some d → ¬ SameLike d doc := by
  rw [AtMostOneLike, World.setDoc_firestore, Function.update_self]
  exact Collection.AtMostOne.insert_iff (fun _ _ hsame => hsame.symm) h hnew

/-- With at most one like per user, the likes of a post are as many as the users who like it. -/
theorem AtMostOneLike.postLikesCount (h : AtMostOneLike w) (postId : PostId) :
    postLikesCount ((postLikes postId).eval (w.firestore .likes)) =
      (usersWhoLike w postId).ncard := by
  have hmem : ∀ s : DocSnapshot, s ∈ (postLikes postId).eval (w.firestore .likes) ↔
      (w.firestore .likes)[s.id]? = some s.data ∧
        s.data.field FirebaseFieldName.postId = .string postId := by
    intro s
    rw [Query.mem_eval_iff rfl]
    simp [postLikes, Query.selects]
  have husers : usersWhoLike w postId = (((postLikes postId).eval (w.firestore .likes)).map
      fun s => s.data.field FirebaseFieldName.userId).toFinset := by
    ext user
    simp only [usersWhoLike, Set.mem_ofPred_eq, List.coe_toFinset, List.mem_map, hmem]
    constructor
    · rintro ⟨id, d, hd, hpost, huser⟩
      exact ⟨⟨id, d⟩, ⟨hd, hpost⟩, huser⟩
    · rintro ⟨s, ⟨hd, hpost⟩, huser⟩
      exact ⟨s.id, s.data, hd, hpost, huser⟩
  have hnodup : (((postLikes postId).eval (w.firestore .likes)).map
      fun s => s.data.field FirebaseFieldName.userId).Nodup := by
    refine List.pairwise_map.mpr ?_
    have hids := List.pairwise_map.mp (Query.nodup_eval (postLikes postId) (w.firestore .likes))
    refine hids.imp_of_mem fun {s s'} hs hs' hne huser => hne ?_
    obtain ⟨hd, hpost⟩ := (hmem s).mp hs
    obtain ⟨hd', hpost'⟩ := (hmem s').mp hs'
    exact h s.id s'.id s.data s'.data hd hd' ⟨hpost.trans hpost'.symm, huser⟩
  rw [husers, Set.ncard_coe_finset, List.toFinset_card_of_nodup hnodup, List.length_map,
    TekkGram.postLikesCount]

end Collection

section Stages

variable {request : LikeDislikeRequest} {stage stage' : Stage} {e : AppEvent} {w w' : World}

/-- After a call every stored like was stored before, or the call has added it. -/
theorem Stage.Next.likes (h : Stage.Next request stage e stage')
    (hstep : World.step w e.call e.reply = some w') {id : String} {d : Doc}
    (hd : (w'.firestore .likes)[id]? = some d) :
    (w.firestore .likes)[id]? = some d ∨ Returned (Writes .likes id) [e] := by
  cases h with
  | readFailed => exact .inl (World.step_error hstep ▸ hd)
  | readNone =>
    simp only [World.step, World.perform] at hstep
    split at hstep <;> cases hstep
    exact .inl hd
  | readLikes docs hdocs =>
    simp only [World.step, World.perform] at hstep
    split at hstep <;> cases hstep
    exact .inl hd
  | deleteFailed => exact .inl (World.step_error hstep ▸ hd)
  | deleted doc docs =>
    cases hstep
    rw [World.eraseDoc_firestore, Function.update_self, Collection.getElem?_erase] at hd
    split at hd
    · cases hd
    · exact .inl hd
  | dateFailed => exact .inl (World.step_error hstep ▸ hd)
  | dated => exact .inl (Option.some.inj hstep ▸ hd)
  | addFailed => exact .inl (World.step_error hstep ▸ hd)
  | added date doc =>
    simp only [World.step, World.perform] at hstep
    split at hstep <;> cases hstep
    rw [World.setDoc_firestore, Function.update_self, Collection.getElem?_insert] at hd
    by_cases hid : doc.id = id
    · exact .inr (by simp [hid])
    · rw [if_neg hid] at hd
      exact .inl hd

/-- Only an add writes a like. -/
theorem Stage.Next.added_of_returned (h : Stage.Next request stage e stage') {id : String}
    (hr : Returned (Writes .likes id) [e]) : ∃ (date : DateTime) (doc : Added),
      stage = .adding date ∧
        e = ⟨.add .likes (like request.postId request.likedBy date), .ok doc⟩ := by
  cases h with
  | added date doc => exact ⟨date, doc, rfl, rfl⟩
  | _ => simp at hr

end Stages

/-- A thread has moved, and every stored like of its request was added since. -/
structure LikedSince (request : LikeDislikeRequest) (moves : List LikeMove) (i : Nat)
    (w : World) : Prop where
  moved : ∃ m ∈ moves, m.thread = i
  added : ∀ (id : String) (d : Doc), (w.firestore .likes)[id]? = some d →
    d.field FirebaseFieldName.postId = .string request.postId →
    d.field FirebaseFieldName.userId = .string request.likedBy → AddedSince moves i id

/-- Every run that is about to add a like has read none, so that the likes of its user on its
post were added since it started. -/
structure LikeInvariant (requests : List LikeDislikeRequest) (moves : List LikeMove)
    (P : LikePool) : Prop where
  length : P.threads.length = requests.length
  once : AtMostOneLike P.state
  runs : ∀ (i : Nat) (request : LikeDislikeRequest), requests[i]? = some request →
    ∃ stage : Stage, P.threads[i]? = some (stage.program request) ∧
      (stage.Adds → LikedSince request moves i P.state)

section Steps

variable {requests : List LikeDislikeRequest} {moves : List LikeMove} {P P' : LikePool}
  {m : LikeMove}

/-- A move takes one run of the pool to its next stage. -/
theorem LikeInvariant.next (hinv : LikeInvariant requests moves P)
    (hstep : Pool.Step World.step P m P') :
    ∃ (request : LikeDislikeRequest) (stage stage' : Stage), requests[m.thread]? = some request ∧
      Stage.Next request stage m.event stage' ∧
      World.step P.state m.event.call m.event.reply = some P'.state ∧
      P'.threads = P.threads.set m.thread (stage'.program request) ∧
      (stage.Adds → LikedSince request moves m.thread P.state) := by
  cases hstep with
  | @mk w w' threads i c next r hthread haccept =>
    have hlt : i < requests.length := by
      rw [← hinv.length]
      exact (List.getElem?_eq_some_iff.mp hthread).1
    have hrequest : requests[i]? = some requests[i] := List.getElem?_eq_getElem hlt
    obtain ⟨stage, hstage, hsince⟩ := hinv.runs i requests[i] hrequest
    have hprogram := Option.some.inj (hstage.symm.trans hthread)
    obtain ⟨stage', hnext, hrest⟩ := Stage.next_of_call hprogram r
    exact ⟨requests[i], stage, stage', hrequest, hnext, haccept, by rw [hrest], hsince⟩

/-- A move keeps the bound exactly when it does not add a like beside one that was added since
its run started. -/
theorem LikeInvariant.once_iff (hinv : LikeInvariant requests moves P)
    (hstep : Pool.Step World.step P m P') : AtMostOneLike P'.state ↔ AddsAlone moves P m := by
  obtain ⟨request, stage, stage', -, hnext, haccept, -, hsince⟩ := hinv.next hstep
  by_cases hadds : ∃ id, Returned (Writes .likes id) [m.event]
  · obtain ⟨id, hreturned⟩ := hadds
    obtain ⟨date, doc, rfl, he⟩ := hnext.added_of_returned hreturned
    rw [he] at haccept
    simp only [World.step, World.perform] at haccept
    split at haccept
    · cases haccept
    · rename_i hnew
      rw [← Option.some.inj haccept, hinv.once.setDoc_iff hnew]
      constructor
      · intro hnone payload added he' id d hd hsame _
        cases he.symm.trans he'
        exact hnone id d hd (sameLike_resolve.mpr (sameLike_like.mp hsame))
      · intro halone id d hd hsame
        obtain ⟨hpost, huser⟩ := sameLike_resolve.mp hsame
        exact halone _ doc he id d hd (sameLike_like.mpr ⟨hpost, huser⟩)
          ((hsince trivial).added id d hd hpost huser)
  · have hkept : AtMostOneLike P'.state := hinv.once.of_subset fun id d hd =>
      (hnext.likes haccept hd).resolve_right fun hreturned => hadds ⟨id, hreturned⟩
    refine iff_of_true hkept fun payload added he => absurd ⟨added.id, ?_⟩ hadds
    rw [he]
    simp

/-- Another thread's move keeps what is known about a run that is about to add. -/
theorem LikedSince.step {request request' : LikeDislikeRequest} {stage stage' : Stage} {i : Nat}
    {w w' : World} (h : LikedSince request' moves i w)
    (hnext : Stage.Next request stage m.event stage')
    (haccept : World.step w m.event.call m.event.reply = some w') :
    LikedSince request' (moves ++ [m]) i w' where
  moved := by
    obtain ⟨first, hmem, hfirst⟩ := h.moved
    exact ⟨first, List.mem_append_left _ hmem, hfirst⟩
  added := by
    intro id d hd hpost huser
    rw [AddedSince, after_snoc]
    rcases hnext.likes haccept hd with hold | hnew
    · exact .inl (h.added id d hold hpost huser)
    · exact .inr ⟨h.moved, hnew⟩

/-- A run that gets ready to add has read that its user does not like its post. -/
theorem LikedSince.of_next {request : LikeDislikeRequest} {stage stage' : Stage} {w w' : World}
    (h : stage.Adds → LikedSince request moves m.thread w)
    (hnext : Stage.Next request stage m.event stage')
    (haccept : World.step w m.event.call m.event.reply = some w') (hadds : stage'.Adds) :
    LikedSince request (moves ++ [m]) m.thread w' := by
  by_cases hstage : stage.Adds
  · exact (h hstage).step hnext haccept
  · obtain ⟨i, e⟩ := m
    cases hnext with
    | readNone =>
      simp only [World.step, World.perform] at haccept
      split at haccept
      · rename_i hnone
        cases haccept
        refine ⟨⟨_, List.mem_append_right _ (List.mem_singleton_self _), rfl⟩, ?_⟩
        intro id d hd hpost huser
        have hread : (⟨id, d⟩ : DocSnapshot) ∈
            request.query.eval (w.firestore request.query.collection) :=
          LikeDislikeRequest.mem_query.mpr ⟨hd, hpost, huser⟩
        rw [← hnone] at hread
        cases hread
      · cases haccept
    | dated => exact absurd trivial hstage
    | _ => exact absurd hadds id

/-- One move of a pool, when it adds no like beside one added since its run started. -/
theorem LikeInvariant.step (hinv : LikeInvariant requests moves P)
    (hguard : AddsAlone moves P m) (hstep : Pool.Step World.step P m P') :
    LikeInvariant requests (moves ++ [m]) P' := by
  obtain ⟨request, stage, stage', hrequest, hnext, haccept, hthreads, hsince⟩ := hinv.next hstep
  refine ⟨?_, (hinv.once_iff hstep).mpr hguard, fun i request' hrequest' => ?_⟩
  · rw [hthreads, List.length_set, hinv.length]
  · by_cases hi : m.thread = i
    · subst hi
      obtain rfl : request = request' := Option.some.inj (hrequest.symm.trans hrequest')
      have hlt : m.thread < P.threads.length := by
        rw [hinv.length]
        exact (List.getElem?_eq_some_iff.mp hrequest).1
      refine ⟨stage', ?_, .of_next hsince hnext haccept⟩
      rw [hthreads, List.getElem?_set_self hlt]
    · obtain ⟨other, hother, hadds⟩ := hinv.runs i request' hrequest'
      refine ⟨other, ?_, fun h => (hadds h).step hnext haccept⟩
      rw [hthreads, List.getElem?_set_ne hi, hother]

end Steps

/-- Taps that have not started yet know nothing about the likes. -/
theorem LikeInvariant.init {w : World} (requests : List LikeDislikeRequest)
    (hw : AtMostOneLike w) : LikeInvariant requests [] ⟨w, requests.map likeRun⟩ := by
  refine ⟨List.length_map .., hw, fun i request hrequest => ⟨.reading, ?_, False.elim⟩⟩
  rw [List.getElem?_map, hrequest]
  rfl

/-- Taps of any users on any posts, interleaved in any order: as long as every add returns with
no like of the same user on the same post, added since the run of the tap started, still stored,
no user likes a post twice and every count is the number of users who like the post. The first add
that returns beside such a like stores a second one. -/
theorem atMostOneLike_iff_of_steps (requests : List LikeDislikeRequest) {w : World}
    (hw : AtMostOneLike w) {moves : List LikeMove} {P : LikePool}
    (h : Pool.Steps World.step AddsAlone ⟨w, requests.map likeRun⟩ moves P) :
    (AtMostOneLike P.state ∧ ∀ postId,
      postLikesCount ((postLikes postId).eval (P.state.firestore .likes)) =
        (usersWhoLike P.state postId).ncard) ∧
    ∀ m P', Pool.Step World.step P m P' → (AtMostOneLike P'.state ↔ AddsAlone moves P m) := by
  have hinv : LikeInvariant requests moves P :=
    h.invariant (LikeInvariant requests) (.init requests hw) fun _ _ _ _ hinv hguard hstep =>
      hinv.step hguard hstep
  exact ⟨⟨hinv.once, hinv.once.postLikesCount⟩, fun m P' hstep => hinv.once_iff hstep⟩

/-- No like of the same user on the same post is stored when an add returns. -/
def addsNew (P : LikePool) (m : LikeMove) : Bool :=
  match m.event with
  | ⟨.add .likes payload, .ok _⟩ =>
    (P.state.firestore .likes).toList.all fun kv => ¬ SameLike kv.2 payload
  | _ => true

theorem addsAlone_of_addsNew (moves : List LikeMove) (P : LikePool) (m : LikeMove)
    (h : addsNew P m = true) : AddsAlone moves P m := by
  intro payload added he id d hd hsame _
  simp only [addsNew, he] at h
  have hmem : (id, d) ∈ (P.state.firestore .likes).toList :=
    Std.ExtTreeMap.mem_toList_iff_getElem?_eq_some.mpr hd
  exact of_decide_eq_true (List.all_eq_true.mp h _ hmem) hsame

theorem AtMostOneLike.initial : AtMostOneLike World.initial := by
  intro id id' d d' hd
  simp [World.initial] at hd

/-- Two users like one post at the same time. -/
theorem atMostOneLike_iff_of_steps_two_users :
    ∃ moves P, Pool.Steps World.step AddsAlone
      ⟨World.initial, [likeRun ⟨"p", "u"⟩, likeRun ⟨"p", "v"⟩]⟩ moves P ∧
      AtMostOneLike P.state ∧ (usersWhoLike P.state "p").ncard = 2 := by
  have hexec : (Pool.exec World.step World.working addsNew [0, 1, 0, 0, 1, 1] []
      ⟨World.initial, [likeRun ⟨"p", "u"⟩, likeRun ⟨"p", "v"⟩]⟩).any
        (fun r => postLikesCount ((postLikes "p").eval (r.2.state.firestore .likes)) = 2) =
          true := by decide +kernel
  obtain ⟨moves, P, hsteps, hcount⟩ := Pool.exec_any addsAlone_of_addsNew hexec
  obtain ⟨⟨hone, hcounts⟩, -⟩ := atMostOneLike_iff_of_steps
    [⟨"p", "u"⟩, ⟨"p", "v"⟩] .initial hsteps
  exact ⟨moves, P, hsteps, hone, (hcounts "p").symm.trans (of_decide_eq_true hcount)⟩

/-- Two taps of one user that both read before either adds store two likes. -/
theorem not_atMostOneLike_of_two_taps :
    ¬ ∀ (w : World) (requests : List LikeDislikeRequest) moves P, AtMostOneLike w →
      Pool.Steps World.step (fun _ _ _ => True) ⟨w, requests.map likeRun⟩ moves P →
      AtMostOneLike P.state := by
  intro hall
  have hexec : (Pool.exec World.step World.working (fun _ _ => true) [0, 1, 0, 0, 1, 1] []
      ⟨World.initial, [likeRun ⟨"p", "u"⟩, likeRun ⟨"p", "u"⟩]⟩).any
        (fun r => (r.2.state.firestore .likes)["3"]?.any fun d =>
          (r.2.state.firestore .likes)["5"]?.any fun d' => SameLike d d') = true := by
    decide +kernel
  obtain ⟨moves, P, hsteps, hlikes⟩ := Pool.exec_any (fun _ _ _ _ => trivial) hexec
  obtain ⟨d, hd, hlikes⟩ := (Option.any_eq_true _ _).mp hlikes
  obtain ⟨d', hd', hsame⟩ := (Option.any_eq_true _ _).mp hlikes
  have hone := hall World.initial [⟨"p", "u"⟩, ⟨"p", "u"⟩] moves P .initial hsteps
  exact absurd (hone "3" "5" d d' hd hd' (of_decide_eq_true hsame)) (by decide)

end TekkGram
