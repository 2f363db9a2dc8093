import TekkGram.Model.Working
import TekkGram.Users.Profiles

/-!
# One profile per user

A login and an update of a profile add a profile when their query has found none. Other runs for the
same user, on this or another device, may add theirs between the query and the add, and nothing in
the code looks again.
-/

namespace TekkGram

open Interaction Async

/-- The runs that can write profiles, with their arguments. -/
inductive ProfileRun where
  | loginWithGoogle
  | updateUserInfo (userId : UserId) (displayName : String) (phone imageUrl : Option String)
  deriving DecidableEq, Repr

/-- The program of a run; the result of an update is not looked at here. -/
def ProfileRun.program : ProfileRun → Program (Fallible Exc Ans) (Except Exc Unit × Unit)
  | .loginWithGoogle => AuthStateNotifier.loginWithGoogle ()
  | .updateUserInfo userId displayName phone imageUrl =>
    ignoreValue (AuthStateNotifier.updateUserInfo userId displayName phone imageUrl) ()

/-- Runs under way on several devices. -/
abbrev ProfilePool := Pool Network (AtPlace Nat (Fallible Exc Ans)) (Except Exc Unit × Unit)

/-- A move of a run on its device. -/
abbrev ProfileMove := Move (AtPlace Nat (Fallible Exc Ans))

/-- Runs that have not started yet, each with its device. -/
def ProfileRun.pool (n : Network) (runs : List (Nat × ProfileRun)) : ProfilePool :=
  .placed n (runs.map fun run => (run.1, run.2.program))

/-- Two documents are profiles of the same user. -/
def SameProfile (d d' : Doc) : Prop :=
  ∃ userId : UserId, d.field FirebaseFieldName.userId = .string userId ∧
    d'.field FirebaseFieldName.userId = .string userId

theorem SameProfile.symm {d d' : Doc} (h : SameProfile d d') : SameProfile d' d := by
  obtain ⟨userId, hd, hd'⟩ := h
  exact ⟨userId, hd', hd⟩

/-- No two documents are profiles of the same user. -/
def AtMostOneProfile (n : Network) : Prop := (n.firestore .users).AtMostOne SameProfile

/-- A thread has moved, and after one of its moves this profile was added. -/
def ProfileAddedSince (i : Nat) (id : String) : List ProfileMove → Prop :=
  After (fun m => m.thread = i) fun m => ∃ payload : Doc, ∃ t,
    m.event.local = ⟨.add .users payload, .ok ⟨id, t⟩⟩

/-- An add of a profile returns only when no profile of the same user was added since its run
started. -/
def AddsProfileAlone (moves : List ProfileMove) (P : ProfilePool) (m : ProfileMove) : Prop :=
  ∀ (payload : Doc) (added : Added), m.event.local = ⟨.add .users payload, .ok added⟩ →
    ∀ (id : String) (d : Doc), (P.state.firestore .users)[id]? = some d →
      SameProfile d payload → ¬ ProfileAddedSince m.thread id moves

theorem sameProfile_resolve {d payload : Doc} {t : Timestamp} {userId : UserId}
    (h : payload.field FirebaseFieldName.userId = .string userId) :
    SameProfile d (payload.resolve t) ↔ d.field FirebaseFieldName.userId = .string userId := by
  have hresolved : (payload.resolve t).field FirebaseFieldName.userId = .string userId := by
    rw [Doc.field_resolve, h, Value.resolve_string]
  constructor
  · rintro ⟨userId', hd, hpayload⟩
    rw [hd, ← hpayload, hresolved]
  · intro hd
    exact ⟨userId, hd, hresolved⟩

/-- What a call of a run does to the profiles. -/
inductive ProfileEffect (docs docs' : Collection) (before : List AppEvent) (ev : AppEvent) : Prop
  | kept (hdocs : docs' = docs) (hadd : ∀ (payload : Doc) (added : Added),
      ev ≠ ⟨.add .users payload, .ok added⟩)
  | updated (id : String) (d d' : Doc) (hbefore : docs[id]? = some d)
      (hdocs : docs' = docs.insert id d')
      (huser : d'.field FirebaseFieldName.userId = d.field FirebaseFieldName.userId)
      (hadd : ∀ (payload : Doc) (added : Added), ev ≠ ⟨.add .users payload, .ok added⟩)
  | added (userId : UserId) (payload : Doc) (id : String) (t : Timestamp)
      (hevent : ev = ⟨.add .users payload, .ok ⟨id, t⟩⟩)
      (huser : payload.field FirebaseFieldName.userId = .string userId)
      (hnone : Returned (FoundNone userId) before) (hnew : id ∉ docs)
      (hdocs : docs' = docs.insert id (payload.resolve t))

theorem ProfileWrite.effect {userId : UserId} {before : List AppEvent} {c : Call}
    {r : Fallible Exc Ans c} {w w' : World}
    (h : ProfileWrite userId (fun _ => UserInfoStorage.SavedFields) before ⟨c, r⟩)
    (hstep : World.step w c r = some w') :
    ProfileEffect (w.firestore .users) (w'.firestore .users) before ⟨c, r⟩ := by
  cases r with
  | error e => exact .kept (by rw [World.step_error hstep]) fun payload added he => by cases he
  | ok a =>
    rcases h with hkeeps | ⟨id, fields, hcall, -, hfields⟩ | ⟨payload, hcall, hnone, huser⟩
    · refine .kept (hkeeps.firestore hstep) fun payload added he => ?_
      cases he
      exact hkeeps rfl
    · cases hcall
      simp only [World.step, World.perform] at hstep
      split at hstep <;> cases hstep
      rename_i d hd
      refine .updated id d (d.merge fields) hd ?_ (hfields.userId d) ?_
      · rw [World.setDoc_firestore, Function.update_self]
      · intro payload added he
        cases he
    · cases hcall
      simp only [World.step, World.perform] at hstep
      split at hstep <;> cases hstep
      rename_i hnew
      refine .added userId payload a.id a.commitTime rfl huser hnone hnew ?_
      rw [World.setDoc_firestore, Function.update_self]

/-- After a call a profile was there before with the same user, or the call has added it. -/
theorem ProfileEffect.read {docs docs' : Collection} {before : List AppEvent} {ev : AppEvent}
    (h : ProfileEffect docs docs' before ev) {id : String} {d : Doc} (hd : docs'[id]? = some d) :
    (∃ d₀ : Doc, docs[id]? = some d₀ ∧
      d.field FirebaseFieldName.userId = d₀.field FirebaseFieldName.userId) ∨
      ∃ payload : Doc, ∃ t, ev = ⟨.add .users payload, .ok ⟨id, t⟩⟩ := by
  cases h with
  | kept hdocs _ => exact .inl ⟨d, hdocs ▸ hd, rfl⟩
  | updated id' d₀ d' hbefore hdocs huser _ =>
    rw [hdocs, Collection.getElem?_insert] at hd
    by_cases hid : id' = id
    · rw [if_pos hid] at hd
      obtain rfl := Option.some.inj hd
      exact .inl ⟨d₀, hid ▸ hbefore, huser⟩
    · rw [if_neg hid] at hd
      exact .inl ⟨d, hd, rfl⟩
  | added userId payload id' t hevent _ _ _ hdocs =>
    rw [hdocs, Collection.getElem?_insert] at hd
    by_cases hid : id' = id
    · exact .inr ⟨payload, t, hid ▸ hevent⟩
    · rw [if_neg hid] at hd
      exact .inl ⟨d, hd, rfl⟩

/-- What holds along an interleaving: when a run's query has found no profile of a user, the
profiles of this user were added after it. -/
structure ProfileInvariant (moves : List ProfileMove) (n : Network) : Prop where
  once : AtMostOneProfile n
  known : ∀ (i : Nat) (userId : UserId), Returned (FoundNone userId) (localEventsOf i moves) →
    ∀ (id : String) (d : Doc), (n.firestore .users)[id]? = some d →
      d.field FirebaseFieldName.userId = .string userId → ProfileAddedSince i id moves

theorem exists_move_of_returned {i : Nat} {moves : List ProfileMove}
    {P : (c : Call) → Ans c → Prop} (h : Returned P (localEventsOf i moves)) :
    ∃ m ∈ moves, m.thread = i := by
  obtain ⟨c, a, hmem, -⟩ := h
  obtain ⟨event, hevent, -⟩ := List.mem_map.mp hmem
  obtain ⟨m, hm, hthread, -⟩ := mem_eventsOf.mp hevent
  exact ⟨m, hm, hthread⟩

section Steps

variable {moves : List ProfileMove} {P : ProfilePool} {n' : Network} {m : ProfileMove}

/-- A move keeps the bound exactly when it does not add a profile beside one that was added since
its run started. -/
theorem ProfileInvariant.once_iff (hi : ProfileInvariant moves P.state)
    (heffect : ProfileEffect (P.state.firestore .users) (n'.firestore .users)
      (localEventsOf m.thread moves) m.event.local) :
    AtMostOneProfile n' ↔ AddsProfileAlone moves P m := by
  have hread : ∀ (id : String) (d : Doc), (n'.firestore .users)[id]? = some d →
      (∃ d₀ : Doc, (P.state.firestore .users)[id]? = some d₀ ∧
        d.field FirebaseFieldName.userId = d₀.field FirebaseFieldName.userId) ∨
        ∃ payload : Doc, ∃ t, m.event.local = ⟨.add .users payload, .ok ⟨id, t⟩⟩ :=
    fun _ _ hd => heffect.read hd
  cases heffect with
  | kept hdocs hadd =>
    refine iff_of_true ?_ fun payload added he => absurd he (hadd payload added)
    rw [AtMostOneProfile, hdocs]
    exact hi.once
  | updated id d d' hbefore hdocs huser hadd =>
    refine iff_of_true ?_ fun payload added he => absurd he (hadd payload added)
    rintro id₁ id₂ d₁ d₂ hd₁ hd₂ ⟨userId, huser₁, huser₂⟩
    obtain ⟨d₁', hd₁', hsame₁⟩ := (hread id₁ d₁ hd₁).resolve_right fun ⟨payload, t, he⟩ =>
      hadd payload _ he
    obtain ⟨d₂', hd₂', hsame₂⟩ := (hread id₂ d₂ hd₂).resolve_right fun ⟨payload, t, he⟩ =>
      hadd payload _ he
    exact hi.once id₁ id₂ d₁' d₂' hd₁' hd₂' ⟨userId, hsame₁ ▸ huser₁, hsame₂ ▸ huser₂⟩
  | added userId payload id t hevent huser hnone hnew hdocs =>
    rw [AtMostOneProfile, hdocs, hi.once.insert_iff (fun _ _ h => h.symm) hnew]
    constructor
    · rintro halone payload' added' he id' d' hd' ⟨userId', huser', hpayload'⟩ -
      cases hevent.symm.trans he
      refine halone id' d' hd' ((sameProfile_resolve huser).mpr ?_)
      rw [huser', ← hpayload', huser]
    · intro halone id' d' hd' hsame
      have huser' := (sameProfile_resolve huser).mp hsame
      exact halone payload ⟨id, t⟩ hevent id' d' hd' ⟨userId, huser', huser⟩
        (hi.known m.thread userId hnone id' d' hd' huser')

/-- One move that meets the guard keeps the invariant. -/
theorem ProfileInvariant.step (hi : ProfileInvariant moves P.state)
    (hguard : AddsProfileAlone moves P m)
    (hstep : Network.step P.state m.event.call m.event.reply = some n')
    (heffect : ProfileEffect (P.state.firestore .users) (n'.firestore .users)
      (localEventsOf m.thread moves) m.event.local) :
    ProfileInvariant (moves ++ [m]) n' := by
  refine ⟨(hi.once_iff heffect).mpr hguard, fun i userId hnone id d hd huser => ?_⟩
  rw [ProfileAddedSince, after_snoc]
  -- a run that had found none before: what is stored was added since, or now
  have hearlier : Returned (FoundNone userId) (localEventsOf i moves) →
      After (fun m => m.thread = i) (fun m => ∃ payload : Doc, ∃ t,
        m.event.local = ⟨.add .users payload, .ok ⟨id, t⟩⟩) moves ∨
      ((∃ y ∈ moves, y.thread = i) ∧ ∃ payload : Doc, ∃ t,
        m.event.local = ⟨.add .users payload, .ok ⟨id, t⟩⟩) := by
    intro hbefore
    rcases heffect.read hd with ⟨d₀, hd₀, hsame⟩ | hadded
    · exact .inl (hi.known i userId hbefore id d₀ hd₀ (hsame ▸ huser))
    · exact .inr ⟨exists_move_of_returned hbefore, hadded⟩
  rw [localEventsOf_snoc] at hnone
  by_cases hthread : m.thread = i
  · rw [if_pos hthread, returned_append] at hnone
    rcases hnone with hbefore | hnow
    · exact hearlier hbefore
    · -- a run that finds none now: no profile of the user is stored
      exfalso
      obtain ⟨i', ⟨⟨device, c⟩, r⟩⟩ := m
      obtain ⟨w, hw, hn'⟩ := Network.step_eq_some hstep
      cases r with
      | error e => simp at hnow
      | ok a =>
        simp only [Event.local_mk, returned_cons_ok, returned_nil, or_false] at hnow
        cases c with
        | get q =>
          obtain ⟨rfl, rfl⟩ := hnow
          simp only [World.step, World.perform] at hw
          split at hw <;> cases hw
          rename_i hdocs
          have hnone := (Query.eval_eq_nil_iff (by simp [UserInfoStorage.profileOf])).mp hdocs.symm
          rw [hn'] at hd
          have hselects := hnone id d hd
          simp [UserInfoStorage.profileOf, Query.selects, huser] at hselects
        | _ => exact hnow
  · rw [if_neg hthread] at hnone
    exact hearlier hnone

/-- What the runs may do to the profiles. -/
theorem ProfileRun.writes (run : ProfileRun) {tr : List AppEvent} {out : Except Exc Unit × Unit}
    (h : Runs anyReply () run.program tr out ()) : Throughout (fun before e => ∃ userId,
      ProfileWrite userId (fun _ => UserInfoStorage.SavedFields) before e) tr := by
  obtain ⟨out, s⟩ := out
  cases run with
  | loginWithGoogle =>
    obtain ⟨userId, hwrites⟩ := wp.elim (AuthStateNotifier.loginWithGoogle_writes () ()) h
    exact hwrites.mono fun _ _ hw => ⟨userId, hw⟩
  | updateUserInfo userId displayName phone imageUrl =>
    have hwp : (ignoreValue (AuthStateNotifier.updateUserInfo userId displayName phone
        imageUrl)).wp anyReply (fun tr _ _ _ => Throughout (fun before e => ∃ userId,
          ProfileWrite userId (fun _ => UserInfoStorage.SavedFields) before e) tr) () () := by
      refine wp_bind.mpr (wp_mono (AuthStateNotifier.updateUserInfo_writes userId displayName phone
        imageUrl () ()) ?_)
      intro tr out s w hwrites
      have hsaved : Throughout (fun before e => ∃ userId,
          ProfileWrite userId (fun _ => UserInfoStorage.SavedFields) before e) tr :=
        hwrites.mono fun _ _ hw => ⟨userId, hw.mono fun _ ⟨email, hfields⟩ =>
          ⟨displayName, email, phone, imageUrl, hfields⟩⟩
      cases out with
      | error e => exact hsaved
      | ok _ =>
        rw [ends_ok, wp_pure, List.append_nil]
        exact hsaved
    exact hwp.elim h

end Steps

/-- Runs of any users on any devices, interleaved in any order: as long as every add returns with no
profile of the same user added since its run started, every user has at most one profile. The first
add that returns after such a profile was added stores a second one. -/
theorem atMostOneProfile_iff_of_steps (runs : List (Nat × ProfileRun)) {n : Network}
    (hn : AtMostOneProfile n) {moves : List ProfileMove} {P : ProfilePool}
    (h : Pool.Steps Network.step AddsProfileAlone (ProfileRun.pool n runs) moves P) :
    AtMostOneProfile P.state ∧ ∀ m P', Pool.Step Network.step P m P' →
      (AtMostOneProfile P'.state ↔ AddsProfileAlone moves P m) := by
  have hT : ∀ (i : Nat) (p : Nat × Program (Fallible Exc Ans) (Except Exc Unit × Unit)),
      (runs.map fun run => (run.1, run.2.program))[i]? = some p → ∀ tr b,
        Runs anyReply () p.2 tr b () → Throughout (fun before e => ∃ userId,
          ProfileWrite userId (fun _ => UserInfoStorage.SavedFields) before e) tr := by
    intro i p hp tr b hrun
    rw [List.getElem?_map] at hp
    obtain ⟨run, -, rfl⟩ := Option.map_eq_some_iff.mp hp
    exact run.2.writes hrun
  have hinv : ProfileInvariant moves P.state := by
    refine h.local_invariant (fun _ => .error .unavailable) hT ProfileInvariant
      ⟨hn, fun i userId hnone => absurd hnone (by simp)⟩ ?_
    rintro moves P ⟨i, ⟨⟨device, c⟩, r⟩⟩ n' hi hguard ⟨userId, hwrite⟩ hstep
    obtain ⟨w, hw, hn'⟩ := Network.step_eq_some hstep
    have heffect := hwrite.effect hw
    rw [← hn'] at heffect
    exact hi.step hguard hstep heffect
  refine ⟨hinv.once, fun m P' hstep => ?_⟩
  obtain ⟨userId, hwrite⟩ := h.allowed (fun _ => .error .unavailable) hT hstep
  cases hstep with
  | @mk n n' threads i c next r hthread haccept =>
    obtain ⟨w, hw, hn'⟩ := Network.step_eq_some haccept
    have heffect := hwrite.effect hw
    rw [← hn'] at heffect
    exact hinv.once_iff heffect

/-- No profile of the same user is stored when an add returns. -/
def addsNewProfile (P : ProfilePool) (m : ProfileMove) : Bool :=
  match m.event.local with
  | ⟨.add .users payload, .ok _⟩ => (P.state.firestore .users).toList.all fun kv =>
    kv.2.field FirebaseFieldName.userId ≠ payload.field FirebaseFieldName.userId
  | _ => true

theorem addsProfileAlone_of_addsNewProfile (moves : List ProfileMove) (P : ProfilePool)
    (m : ProfileMove) (h : addsNewProfile P m = true) : AddsProfileAlone moves P m := by
  rintro payload added he id d hd ⟨userId, huser, hpayload⟩ _
  simp only [addsNewProfile, he] at h
  have hmem : (id, d) ∈ (P.state.firestore .users).toList :=
    Std.ExtTreeMap.mem_toList_iff_getElem?_eq_some.mpr hd
  exact of_decide_eq_true (List.all_eq_true.mp h _ hmem) (huser.trans hpayload.symm)

/-- Devices on an empty backend. -/
def emptyNetwork : Network := .ofWorld World.initial

theorem AtMostOneProfile.emptyNetwork : AtMostOneProfile emptyNetwork := by
  intro id id' d d' hd
  simp [TekkGram.emptyNetwork, Network.ofWorld, World.initial] at hd

/-- A first login on one device while another user's profile is added on a second one. -/
theorem atMostOneProfile_iff_of_steps_two_users : ∃ moves P,
    Pool.Steps Network.step AddsProfileAlone (ProfileRun.pool emptyNetwork
      [(0, .loginWithGoogle), (1, .updateUserInfo "v" "V" none none)]) moves P ∧
    AtMostOneProfile P.state ∧ (P.state.firestore .users).size = 2 := by
  have hexec : (Pool.exec Network.step Network.working addsNewProfile
      (List.replicate 12 0 ++ List.replicate 7 1 ++ [0, 0]) [] (ProfileRun.pool emptyNetwork
        [(0, .loginWithGoogle), (1, .updateUserInfo "v" "V" none none)])).any
      (fun r => (r.2.state.firestore .users).size = 2) = true := by decide +kernel
  obtain ⟨moves, P, hsteps, hsize⟩ := Pool.exec_any addsProfileAlone_of_addsNewProfile hexec
  obtain ⟨hone, -⟩ := atMostOneProfile_iff_of_steps
    [(0, .loginWithGoogle), (1, .updateUserInfo "v" "V" none none)] .emptyNetwork hsteps
  exact ⟨moves, P, hsteps, hone, of_decide_eq_true hsize⟩

/-- First logins of one user on two devices that both look for a profile before either adds one
store two profiles. -/
theorem not_atMostOneProfile_of_two_logins :
    ¬ ∀ (runs : List (Nat × ProfileRun)) (n : Network) (moves : List ProfileMove) (P : ProfilePool),
      AtMostOneProfile n →
      Pool.Steps Network.step (fun _ _ _ => True) (ProfileRun.pool n runs) moves P →
      AtMostOneProfile P.state := by
  intro hall
  have hexec : (Pool.exec Network.step Network.working (fun _ _ => true)
      (List.replicate 12 0 ++ List.replicate 12 1 ++ [0, 1]) [] (ProfileRun.pool emptyNetwork
        [(0, .loginWithGoogle), (1, .loginWithGoogle)])).any (fun r =>
        (r.2.state.firestore .users)["24"]?.any fun d =>
          (r.2.state.firestore .users)["25"]?.any fun d' =>
            d.field FirebaseFieldName.userId = .string "u" ∧
              d'.field FirebaseFieldName.userId = .string "u") = true := by decide +kernel
  obtain ⟨moves, P, hsteps, hprofiles⟩ := Pool.exec_any (fun _ _ _ _ => trivial) hexec
  obtain ⟨d, hd, hprofiles⟩ := (Option.any_eq_true _ _).mp hprofiles
  obtain ⟨d', hd', hsame⟩ := (Option.any_eq_true _ _).mp hprofiles
  have hone := hall [(0, .loginWithGoogle), (1, .loginWithGoogle)] emptyNetwork moves P
    .emptyNetwork hsteps
  exact absurd (hone "24" "25" d d' hd hd' ⟨"u", of_decide_eq_true hsame⟩) (by decide)

end TekkGram
