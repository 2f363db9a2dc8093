import TekkGram.Model.Working
import TekkGram.Users.Profiles

/-!
# Concurrent edits of one profile

The name, the phone and the picture of a profile are edited separately, but each edit writes all of
these fields, the others with the values of the screen's own snapshot of the profile. The last write
decides all fields.
-/

namespace TekkGram

open Interaction Async

/-- Three edits of one profile: the new values, and the snapshot that each screen holds. -/
structure ProfileEdits where
  userId : UserId
  displayName : String
  phone : String
  photo : File
  nameSnapshot : UserInfoModel
  phoneSnapshot : UserInfoModel
  photoSnapshot : UserInfoModel

/-- The app running on several devices. -/
abbrev NetworkPool := Pool Network (AtPlace Nat (Fallible Exc Ans)) (Except Exc Bool × Unit)

/-- A move of an app on its device. -/
abbrev NetworkMove := Move (AtPlace Nat (Fallible Exc Ans))

/-- A document holds these values of the edited fields. -/
structure Doc.HasProfile (d : Doc) (displayName phone imageUrl : String) : Prop where
  displayName : d.field FirebaseFieldName.displayName = .string displayName
  phone : d.field FirebaseFieldName.phone = .string phone
  imageUrl : d.field FirebaseFieldName.imageUrl = .string imageUrl

theorem Doc.hasProfile_iff {d : Doc} {displayName phone imageUrl displayName' phone' imageUrl' :
    String} (h : d.HasProfile displayName phone imageUrl) :
    d.HasProfile displayName' phone' imageUrl' ↔
      (displayName, phone, imageUrl) = (displayName', phone', imageUrl') := by
  constructor
  · intro h'
    have hname := Value.string_inj.mp (h.displayName.symm.trans h'.displayName)
    have hphone := Value.string_inj.mp (h.phone.symm.trans h'.phone)
    have himage := Value.string_inj.mp (h.imageUrl.symm.trans h'.imageUrl)
    rw [hname, hphone, himage]
  · rintro ⟨rfl, rfl, rfl⟩
    exact h

/-- The profile of a user is the document `id`, and no other document. -/
structure Collection.OneProfile (docs : Collection) (userId : UserId) (id : String) : Prop where
  stored : ∃ d : Doc, docs[id]? = some d ∧ d.field FirebaseFieldName.userId = .string userId
  unique : ∀ (id' : String) (d : Doc), docs[id']? = some d →
    d.field FirebaseFieldName.userId = .string userId → id' = id

namespace ProfileEdits

/-- The three runs, each on its device. -/
def programs (e : ProfileEdits) (nameDevice phoneDevice photoDevice : Nat) :
    List (Nat × Program (Fallible Exc Ans) (Except Exc Bool × Unit)) :=
  [(nameDevice, AuthStateNotifier.updateUserInfo e.userId e.displayName e.nameSnapshot.phone
      e.nameSnapshot.imageUrl ()),
   (phoneDevice, AuthStateNotifier.updateUserInfo e.userId e.phoneSnapshot.displayName
      (some e.phone) e.phoneSnapshot.imageUrl ()),
   (photoDevice, ImageUploadNotifier.upload e.photo .userImage none none e.userId
      (some e.photoSnapshot) ())]

/-- The fields that one of the runs writes. -/
def Fields (e : ProfileEdits) : Nat → List AppEvent → Doc → Prop
  | 0, _, fields => ∃ email, fields = UserInfoStorage.updatedFields e.displayName email
      e.nameSnapshot.phone e.nameSnapshot.imageUrl
  | 1, _, fields => ∃ email, fields = UserInfoStorage.updatedFields e.phoneSnapshot.displayName
      email (some e.phone) e.phoneSnapshot.imageUrl
  | _, before, fields => ImageUploadNotifier.PhotoFields (some e.photoSnapshot) before fields

/-- The values that one of the runs writes, when the picture's URL is `url`. -/
def values (e : ProfileEdits) (url : String) : Nat → String × String × String
  | 0 => (e.displayName, e.nameSnapshot.phone.getD "", e.nameSnapshot.imageUrl.getD "")
  | 1 => (e.phoneSnapshot.displayName, e.phone, e.phoneSnapshot.imageUrl.getD "")
  | _ => (e.photoSnapshot.displayName, e.photoSnapshot.phone.getD "", url)

/-- The snapshot of a run shows the new values of the fields that it does not edit. -/
def UpToDate (e : ProfileEdits) (url : String) (i : Nat) : Prop :=
  e.values url i = (e.displayName, e.phone, url)

/-- The stored profile has all three new values. -/
def Kept (e : ProfileEdits) (id url : String) (n : Network) : Prop :=
  ∃ d : Doc, (n.firestore .users)[id]? = some d ∧ d.HasProfile e.displayName e.phone url

end ProfileEdits

/-- The last write of a profile is one of this run. -/
def LastUpdate (id : String) (i : Nat) : List NetworkMove → Prop :=
  Since (fun _ m => m.thread = i ∧ Returned (Writes .users id) [m.event.local])
    fun m => ¬ Returned (Writes .users id) [m.event.local]

theorem lastUpdate_snoc {id : String} {i : Nat} {moves : List NetworkMove} {m : NetworkMove} :
    LastUpdate id i (moves ++ [m]) ↔
      (m.thread = i ∧ Returned (Writes .users id) [m.event.local]) ∨
        (LastUpdate id i moves ∧ ¬ Returned (Writes .users id) [m.event.local]) := since_snoc

/-- Merging written fields gives the values that the run writes, and keeps the user id. -/
theorem ProfileEdits.Fields.hasProfile {e : ProfileEdits} {i : Nat} {before : List AppEvent}
    {fields : Doc} (h : e.Fields i before fields) (d : Doc) :
    (d.merge fields).field FirebaseFieldName.userId = d.field FirebaseFieldName.userId ∧
      ∃ url, (d.merge fields).HasProfile (e.values url i).1 (e.values url i).2.1
        (e.values url i).2.2 ∧ (2 ≤ i → Returned (Fetched url) before) := by
  have hsaved : ∀ (displayName : String) (email phone imageUrl : Option String),
      (d.merge (UserInfoStorage.updatedFields displayName email phone imageUrl)).field
          FirebaseFieldName.userId = d.field FirebaseFieldName.userId ∧
        (d.merge (UserInfoStorage.updatedFields displayName email phone imageUrl)).HasProfile
          displayName (phone.getD "") (imageUrl.getD "") := by
    intro displayName email phone imageUrl
    refine ⟨?_, ?_, ?_, ?_⟩ <;>
      simp +decide only [UserInfoStorage.updatedFields, Doc.field_merge_cons, Doc.field_merge_nil,
        Doc.field_set, ite_true, ite_false]
  rcases i with _ | _ | i
  · obtain ⟨email, he⟩ := h
    obtain ⟨huser, hprofile⟩ := hsaved e.displayName email e.nameSnapshot.phone
      e.nameSnapshot.imageUrl
    rw [he]
    exact ⟨huser, "", hprofile, fun hi => absurd hi (by decide)⟩
  · obtain ⟨email, he⟩ := h
    obtain ⟨huser, hprofile⟩ := hsaved e.phoneSnapshot.displayName email (some e.phone)
      e.phoneSnapshot.imageUrl
    rw [he]
    exact ⟨huser, "", hprofile, fun hi => absurd hi (by decide)⟩
  · obtain ⟨url, hurl, he⟩ := h
    rw [he]
    refine ⟨?_, url, ⟨?_, ?_, ?_⟩, fun _ => hurl⟩ <;>
      simp +decide only [ImageUploadNotifier.profileFields, Doc.field_merge_cons,
        Doc.field_merge_nil, Doc.field_set, ite_true, ite_false, Option.map_some, Option.getD_some,
        Option.bind_some, ProfileEdits.values]

/-- What holds along an interleaving of the edits: the profile is one document, every query has
found it, and it holds the values of the last update. -/
structure EditInvariant (e : ProfileEdits) (id : String) (moves : List NetworkMove) (n : Network) :
    Prop where
  one : (n.firestore .users).OneProfile e.userId id
  found : ∀ i, ¬ Returned (FoundNone e.userId) (localEventsOf i moves) ∧
    ∀ id', Returned (Found e.userId id') (localEventsOf i moves) → id' = id
  last : ∀ i, LastUpdate id i moves → ∃ (d : Doc) (url : String),
    (n.firestore .users)[id]? = some d ∧
    d.HasProfile (e.values url i).1 (e.values url i).2.1 (e.values url i).2.2 ∧
    (2 ≤ i → Returned (Fetched url) (localEventsOf i moves))

/-- A query for a profile that is one document finds this document. -/
theorem Collection.OneProfile.eval {docs : Collection} {userId : UserId} {id : String}
    (h : docs.OneProfile userId id) : (UserInfoStorage.profileOf userId).eval docs ≠ [] ∧
      ∀ id', ((UserInfoStorage.profileOf userId).eval docs).head?.map (·.id) = some id' →
        id' = id := by
  obtain ⟨d, hd, huser⟩ := h.stored
  constructor
  · rw [Ne, Query.eval_eq_nil_iff (by simp [UserInfoStorage.profileOf])]
    intro hnone
    have hselects := hnone id d hd
    simp [UserInfoStorage.profileOf, Query.selects, huser] at hselects
  · intro id' hhead
    obtain ⟨s, hs, rfl⟩ := Option.map_eq_some_iff.mp hhead
    obtain ⟨hstored, hselects⟩ := Query.mem_eval (List.mem_of_head? hs)
    refine h.unique s.id s.data hstored ?_
    simpa [UserInfoStorage.profileOf, Query.selects] using hselects

/-- A query for such a profile is answered with its document. -/
theorem Collection.OneProfile.found {w w' : World} {userId : UserId} {id : String}
    (h : (w.firestore .users).OneProfile userId id) {c : Call} {a : Ans c}
    (hstep : World.step w c (.ok a) = some w') :
    ¬ FoundNone userId c a ∧ ∀ id', Found userId id' c a → id' = id := by
  obtain ⟨hsome, hfirst⟩ := h.eval
  cases c with
  | get q =>
    simp only [World.step, World.perform] at hstep
    split at hstep <;> cases hstep
    rename_i hdocs
    constructor
    · rintro ⟨rfl, hnone⟩
      exact hsome (hdocs.symm.trans hnone)
    · rintro id' ⟨rfl, hid⟩
      rw [hdocs] at hid
      exact hfirst id' hid
  | _ => exact ⟨not_false, fun _ hid => hid.elim⟩

section Steps

variable {e : ProfileEdits} {id : String} {moves : List NetworkMove} {n : Network} {w : World}
  {i : Nat} {device : Nat} {c : Call}

/-- A call that returned adds what it has found to what its run has found. -/
theorem EditInvariant.found_snoc (hi : EditInvariant e id moves n) {a : Ans c}
    (hstep : World.step (n.view device) c (.ok a) = some w) (j : Nat) :
    ¬ Returned (FoundNone e.userId)
        (localEventsOf j (moves ++ [(⟨i, ⟨(device, c), .ok a⟩⟩ : NetworkMove)])) ∧
      ∀ id', Returned (Found e.userId id')
        (localEventsOf j (moves ++ [(⟨i, ⟨(device, c), .ok a⟩⟩ : NetworkMove)])) → id' = id := by
  have hone : ((n.view device).firestore .users).OneProfile e.userId id := hi.one
  obtain ⟨hnone, hfirst⟩ := hone.found hstep
  obtain ⟨hpast, hpastFirst⟩ := hi.found j
  rw [localEventsOf_snoc]
  by_cases hj : i = j
  · simp only [hj, ite_true, Event.local_mk, returned_append, returned_cons_ok, returned_nil,
      or_false, not_or]
    exact ⟨⟨hpast, hnone⟩, fun id' hid => hid.elim (hpastFirst id') (hfirst id')⟩
  · simp only [hj, ite_false]
    exact ⟨hpast, hpastFirst⟩

/-- A move that writes no profile keeps the invariant. -/
theorem EditInvariant.keep {m : NetworkMove} {n' : Network} (hi : EditInvariant e id moves n)
    (husers : n'.firestore .users = n.firestore .users)
    (hwrites : ¬ Returned (Writes .users id) [m.event.local])
    (hfound : ∀ j, ¬ Returned (FoundNone e.userId) (localEventsOf j (moves ++ [m])) ∧
      ∀ id', Returned (Found e.userId id') (localEventsOf j (moves ++ [m])) → id' = id) :
    EditInvariant e id (moves ++ [m]) n' := by
  refine ⟨husers ▸ hi.one, hfound, fun j hlast => ?_⟩
  rw [lastUpdate_snoc] at hlast
  obtain ⟨hpast, -⟩ := hlast.resolve_left fun hnow => hwrites hnow.2
  obtain ⟨d, url, hd, hprofile, hfetched⟩ := hi.last j hpast
  refine ⟨d, url, husers ▸ hd, hprofile, fun hj => ?_⟩
  rw [localEventsOf_append, returned_append]
  exact .inl (hfetched hj)

/-- One move of the edits keeps the invariant. -/
theorem EditInvariant.step {r : Fallible Exc Ans c} {n' : Network}
    (hi : EditInvariant e id moves n)
    (hallowed : ProfileWrite e.userId (e.Fields i) (localEventsOf i moves) ⟨c, r⟩)
    (hstep : Network.step n (device, c) r = some n') :
    EditInvariant e id (moves ++ [⟨i, ⟨(device, c), r⟩⟩]) n' := by
  obtain ⟨w, hw, hn'⟩ := Network.step_eq_some hstep
  cases r with
  | error exc =>
    have hworld := World.step_error hw
    refine hi.keep (by rw [hn', hworld]; rfl) (by simp) fun j => ?_
    rw [localEventsOf_snoc]
    by_cases hj : i = j
    · simpa [hj] using hi.found j
    · simpa [hj] using hi.found j
  | ok a =>
    have hfound := hi.found_snoc (i := i) hw
    rcases hallowed with hkeeps | ⟨id', fields, hcall, hread, hfields⟩ | ⟨payload, hcall, hnone, -⟩
    · have hsame := hkeeps.firestore hw
      refine hi.keep (by rw [hn', hsame]; rfl) ?_ hfound
      simpa using hkeeps.not_writes id a
    · -- the update of the one profile
      cases hcall
      obtain rfl := (hi.found i).2 id' hread
      obtain ⟨d, hd, huser⟩ := hi.one.stored
      have hview : ((n.view device).firestore .users)[id']? = some d := hd
      simp only [World.step, World.perform, hview] at hw
      obtain rfl := Option.some.inj hw
      obtain ⟨hkept, url, hprofile, hurl⟩ := hfields.hasProfile d
      have husers : n'.firestore .users = (n.firestore .users).insert id' (d.merge fields) := by
        rw [hn', World.setDoc_firestore, Function.update_self]
        rfl
      refine ⟨⟨⟨_, by rw [husers, Collection.getElem?_insert_self], hkept.trans huser⟩, ?_⟩,
        hfound, ?_⟩
      · intro id'' d'' hd'' huser''
        rw [husers, Collection.getElem?_insert] at hd''
        by_cases hid : id' = id''
        · exact hid.symm
        · rw [if_neg hid] at hd''
          exact hi.one.unique id'' d'' hd'' huser''
      · intro j hlast
        rcases lastUpdate_snoc.mp hlast with ⟨rfl, -⟩ | ⟨-, hnot⟩
        · refine ⟨_, url, by rw [husers, Collection.getElem?_insert_self], hprofile, fun hj => ?_⟩
          rw [localEventsOf_append, returned_append]
          exact .inl (hurl hj)
        · simp at hnot
    · exact absurd hnone (hi.found i).1

/-- The runs write the profile only with their fields, and return `true` after a write only. -/
theorem ProfileEdits.programs_trace (e : ProfileEdits) (d₀ d₁ d₂ : Nat)
    {p : Nat × Program (Fallible Exc Ans) (Except Exc Bool × Unit)}
    (hp : (e.programs d₀ d₁ d₂)[i]? = some p) {tr : List AppEvent} {out : Except Exc Bool × Unit}
    (h : Runs anyReply () p.2 tr out ()) :
    Throughout (ProfileWrite e.userId (e.Fields i)) tr ∧
      (out.1 = .ok true → ∃ id, Returned (Writes .users id) tr) ∧
      (i = 2 → ∀ url url',
        Returned (Fetched url) tr → Returned (Fetched url') tr → url = url') := by
  obtain ⟨out, s⟩ := out
  rcases i with _ | _ | _ | i
  · obtain rfl := Option.some.inj hp
    exact ⟨wp.elim (AuthStateNotifier.updateUserInfo_writes _ _ _ _ () ()) h,
      wp.elim (AuthStateNotifier.updateUserInfo_wrote _ _ _ _ () ()) h,
      fun hi => absurd hi (by decide)⟩
  · obtain rfl := Option.some.inj hp
    exact ⟨wp.elim (AuthStateNotifier.updateUserInfo_writes _ _ _ _ () ()) h,
      wp.elim (AuthStateNotifier.updateUserInfo_wrote _ _ _ _ () ()) h,
      fun hi => absurd hi (by decide)⟩
  · obtain rfl := Option.some.inj hp
    have htrace := wp.elim (ImageUploadNotifier.uploadPhoto_trace _ _ _ _ _ () ()) h
    exact ⟨htrace.writes, htrace.wrote, fun _ => htrace.fetched⟩
  · cases hp

/-- A run that has written a profile has written the one that it has found. -/
theorem EditInvariant.writes (hi : EditInvariant e id moves n)
    (hwrites : Throughout (ProfileWrite e.userId (e.Fields i)) (localEventsOf i moves))
    {id' : String} (hwrote : Returned (Writes .users id') (localEventsOf i moves)) : id' = id := by
  obtain ⟨c, a, hmem, hw⟩ := hwrote
  obtain ⟨before, after, hsplit⟩ := List.append_of_mem hmem
  obtain ⟨hnone, hfirst⟩ := hi.found i
  rw [hsplit] at hwrites hnone hfirst
  rcases hwrites before _ after rfl with hkeeps | ⟨id'', fields, hcall, hread, -⟩ |
    ⟨payload, -, hread, -⟩
  · exact absurd hw (hkeeps.not_writes id' a)
  · cases hcall
    rw [← hw.2]
    exact hfirst id'' (returned_append.mpr (.inl hread))
  · exact absurd (returned_append.mpr (.inl hread)) hnone

/-- The values of the first two runs do not depend on the URL. -/
theorem ProfileEdits.values_congr (e : ProfileEdits) {url url' : String}
    (h : 2 ≤ i → url = url') : e.values url i = e.values url' i := by
  rcases i with _ | _ | i
  · rfl
  · rfl
  · rw [h (by omega)]

/-- A document that some run has written was written last by one of them. -/
theorem exists_lastUpdate (h : Returned (Writes .users id) (localEventsOf i moves)) :
    ∃ j, LastUpdate id j moves := by
  obtain ⟨c, a, hmem, hw⟩ := h
  obtain ⟨event, hevent, he⟩ := List.mem_map.mp hmem
  obtain ⟨m, hm, -, rfl⟩ := mem_eventsOf.mp hevent
  obtain ⟨before, m', after, hsplit, hm', hafter⟩ :=
    since_of_mem (C := fun m : NetworkMove => Returned (Writes .users id) [m.event.local])
      ⟨m, hm, by rw [he]; simpa using hw⟩
  exact ⟨m'.thread, before, m', after, hsplit, ⟨rfl, hm'⟩, hafter⟩

end Steps

/-- Once all three edits have returned `true`, the stored profile has all new values exactly when
the edit that wrote last was given a snapshot that shows the new values of the other two. -/
theorem profileEdits_kept_iff_of_steps (e : ProfileEdits) (nameDevice phoneDevice photoDevice : Nat)
    {n : Network} {id url : String} {moves : List NetworkMove} {P : NetworkPool}
    (hone : (n.firestore .users).OneProfile e.userId id)
    (h : Pool.Steps Network.step (fun _ _ _ => True)
      (.placed n (e.programs nameDevice phoneDevice photoDevice)) moves P)
    (hdone : ∀ p ∈ P.threads, p = .done (.ok true, ()))
    (hurl : Returned (Fetched url) (localEventsOf 2 moves)) :
    e.Kept id url P.state ↔ ∀ i, LastUpdate id i moves → e.UpToDate url i := by
  have hT : ∀ (i : Nat) (p : Nat × Program (Fallible Exc Ans) (Except Exc Bool × Unit)),
      (e.programs nameDevice phoneDevice photoDevice)[i]? = some p → ∀ tr b,
        Runs anyReply () p.2 tr b () → Throughout (ProfileWrite e.userId (e.Fields i)) tr :=
    fun i p hp tr b hrun => (e.programs_trace _ _ _ hp hrun).1
  have hinv : EditInvariant e id moves P.state := by
    refine h.local_invariant (fun _ => .error .unavailable) hT (EditInvariant e id)
      ⟨hone, by simp, fun i hlast => absurd hlast not_since_nil⟩ ?_
    rintro moves P ⟨i, ⟨⟨device, c⟩, r⟩⟩ n' hi - hallowed hstep
    exact hi.step hallowed hstep
  have htraces : ∀ (i : Nat) (p : Nat × Program (Fallible Exc Ans) (Except Exc Bool × Unit)),
      (e.programs nameDevice phoneDevice photoDevice)[i]? = some p →
        Throughout (ProfileWrite e.userId (e.Fields i)) (localEventsOf i moves) ∧
          (∃ id, Returned (Writes .users id) (localEventsOf i moves)) ∧
          (i = 2 → ∀ url url', Returned (Fetched url) (localEventsOf i moves) →
            Returned (Fetched url') (localEventsOf i moves) → url = url') := by
    intro i p hp
    have hthread : (Pool.placed n (e.programs nameDevice phoneDevice photoDevice)).threads[i]? =
        some (p.2.placed p.1) := by
      rw [Pool.placed, List.getElem?_map, hp, Option.map_some]
    obtain ⟨q, hq, -⟩ := h.follows hthread
    rw [hdone q (List.mem_of_getElem? hq)] at hq
    obtain ⟨hwrites, hwrote, hfetched⟩ := e.programs_trace _ _ _ hp (h.local_runs hthread hq)
    exact ⟨hwrites, hwrote rfl, hfetched⟩
  -- what the last update wrote are the values that are stored in the end
  have hstored : ∀ i, LastUpdate id i moves → ∃ d : Doc, (P.state.firestore .users)[id]? = some d ∧
      d.HasProfile (e.values url i).1 (e.values url i).2.1 (e.values url i).2.2 := by
    intro i hlast
    obtain ⟨d, url', hd, hprofile, hfetched⟩ := hinv.last i hlast
    have hsame : e.values url' i = e.values url i := by
      refine e.values_congr fun hi => ?_
      obtain ⟨before, m, after, rfl, ⟨rfl, -⟩, -⟩ := hlast
      have hlt : m.thread < 3 := h.thread_lt m (by simp)
      obtain hi : m.thread = 2 := by omega
      rw [hi] at hfetched
      obtain ⟨-, -, honce⟩ := htraces 2 _ rfl
      exact honce rfl url' url (hfetched le_rfl) hurl
    rw [hsame] at hprofile
    exact ⟨d, hd, hprofile⟩
  have hexists : ∃ i, LastUpdate id i moves := by
    obtain ⟨hwrites, ⟨id', hwrote⟩, -⟩ := htraces 0 _ rfl
    obtain rfl := hinv.writes hwrites hwrote
    exact exists_lastUpdate hwrote
  constructor
  · rintro ⟨d, hd, hkept⟩ i hlast
    obtain ⟨d', hd', hprofile⟩ := hstored i hlast
    obtain rfl : d = d' := Option.some.inj (hd.symm.trans hd')
    exact (Doc.hasProfile_iff hprofile).mp hkept
  · intro hall
    obtain ⟨i, hlast⟩ := hexists
    obtain ⟨d, hd, hprofile⟩ := hstored i hlast
    exact ⟨d, hd, (Doc.hasProfile_iff hprofile).mpr (hall i hlast)⟩

/-- The run that made the last write of a profile. -/
def lastWriter (id : String) (moves : List NetworkMove) : Option Nat :=
  (moves.filter fun m => Returned (Writes .users id) [m.event.local]).getLast?.map (·.thread)

theorem LastUpdate.lastWriter {id : String} {i : Nat} {moves : List NetworkMove}
    (h : LastUpdate id i moves) : lastWriter id moves = some i := by
  obtain ⟨before, m, after, rfl, ⟨rfl, hm⟩, hafter⟩ := h
  have hnone : after.filter (fun m => Returned (Writes .users id) [m.event.local]) = [] := by
    rw [List.filter_eq_nil_iff]
    intro x hx
    simpa using hafter x hx
  simp [TekkGram.lastWriter, List.filter_append, hm, hnone]

/-- The profile of one user. -/
def someProfile : Network :=
  .ofWorld (World.initial.setDoc .users "p" ((userInfoPayload "u" (some "A") none (some "1")
    (some "old")).resolve 0))

theorem someProfile_oneProfile : (someProfile.firestore .users).OneProfile "u" "p" := by
  have husers : someProfile.firestore .users = (∅ : Collection).insert "p"
      ((userInfoPayload "u" (some "A") none (some "1") (some "old")).resolve 0) := by
    simp [someProfile, Network.ofWorld, World.initial]
  rw [husers]
  refine ⟨⟨_, Collection.getElem?_insert_self, rfl⟩, fun id d hd _ => ?_⟩
  rw [Collection.getElem?_insert] at hd
  by_cases hid : "p" = id
  · exact hid.symm
  · simp [hid] at hd

/-- The snapshot of a profile that shows these values. -/
def snapshot (displayName phone : String) : UserInfoModel :=
  ⟨"u", displayName, none, some phone, some "old"⟩

/-- The edits one after another, each screen showing what the edits before it have written. -/
def successiveEdits : ProfileEdits :=
  ⟨"u", "B", "2", ⟨"a.jpg"⟩, snapshot "A" "1", snapshot "B" "1", snapshot "B" "2"⟩

/-- The edits one after another, each screen showing the profile as it was before all of them. -/
def staleEdits : ProfileEdits :=
  ⟨"u", "B", "2", ⟨"a.jpg"⟩, snapshot "A" "1", snapshot "A" "1", snapshot "A" "1"⟩

/-- The moves of the three runs one after another. -/
def oneAfterAnother : List Nat :=
  List.replicate 7 0 ++ List.replicate 7 1 ++ List.replicate 13 2

/-- Edits that follow one another with refreshed screens are all kept. -/
theorem profileEdits_kept_iff_of_steps_successive : ∃ moves P,
    Pool.Steps Network.step (fun _ _ _ => True)
      (.placed someProfile (successiveEdits.programs 0 1 0)) moves P ∧
    successiveEdits.Kept "p" "user_image/20" P.state := by
  have hexec : (Pool.exec Network.step Network.working (fun _ _ => true) oneAfterAnother []
      (.placed someProfile (successiveEdits.programs 0 1 0))).any (fun r =>
        r.2.threads.all (Program.returned (.ok true, ())) &&
          (Returned (Fetched "user_image/20") (localEventsOf 2 r.1) &&
            lastWriter "p" r.1 = some 2)) = true := by decide +kernel
  obtain ⟨moves, P, hsteps, htest⟩ := Pool.exec_any (fun _ _ _ _ => trivial) hexec
  obtain ⟨hdone, htest⟩ := (Bool.and_eq_true _ _).mp htest
  obtain ⟨hfetched, hlast⟩ := (Bool.and_eq_true _ _).mp htest
  refine ⟨moves, P, hsteps, (profileEdits_kept_iff_of_steps successiveEdits 0 1 0
    someProfile_oneProfile hsteps (fun p hp => Program.eq_done_of_returned
      (List.all_eq_true.mp hdone p hp)) (of_decide_eq_true hfetched)).mpr ?_⟩
  intro i hi
  obtain rfl : 2 = i := Option.some.inj ((of_decide_eq_true hlast).symm.trans hi.lastWriter)
  rfl

/-- Edits from screens that show the profile of before all of them: the picture's upload, last,
restores the name and the phone. -/
theorem not_profileEdits_kept_of_stale_snapshot :
    ¬ ∀ (e : ProfileEdits) (nameDevice phoneDevice photoDevice : Nat) (n : Network)
      (id url : String) (moves : List NetworkMove) (P : NetworkPool),
      (n.firestore .users).OneProfile e.userId id →
      Pool.Steps Network.step (fun _ _ _ => True)
        (.placed n (e.programs nameDevice phoneDevice photoDevice)) moves P →
      (∀ p ∈ P.threads, p = .done (.ok true, ())) →
      Returned (Fetched url) (localEventsOf 2 moves) → e.Kept id url P.state := by
  intro hall
  have hexec : (Pool.exec Network.step Network.working (fun _ _ => true) oneAfterAnother []
      (.placed someProfile (staleEdits.programs 0 1 0))).any (fun r =>
        r.2.threads.all (Program.returned (.ok true, ())) &&
          (Returned (Fetched "user_image/20") (localEventsOf 2 r.1) &&
            (r.2.state.firestore .users)["p"]?.all fun d =>
              d.field FirebaseFieldName.displayName = .string "A")) = true := by decide +kernel
  obtain ⟨moves, P, hsteps, htest⟩ := Pool.exec_any (fun _ _ _ _ => trivial) hexec
  obtain ⟨hdone, htest⟩ := (Bool.and_eq_true _ _).mp htest
  obtain ⟨hfetched, hname⟩ := (Bool.and_eq_true _ _).mp htest
  obtain ⟨d, hd, hkept⟩ := hall staleEdits 0 1 0 someProfile "p" _ moves P someProfile_oneProfile
    hsteps (fun p hp => Program.eq_done_of_returned (List.all_eq_true.mp hdone p hp))
    (of_decide_eq_true hfetched)
  rw [hd, Option.all_some, decide_eq_true_eq, hkept.displayName, Value.string_inj] at hname
  exact absurd hname (by decide)

end TekkGram
