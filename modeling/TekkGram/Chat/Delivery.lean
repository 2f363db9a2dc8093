import Mathlib.Data.Fintype.EquivFin
import Std.Data.String.ToInt
import TekkGram.Interaction.Pool
import TekkGram.Model.Working
import TekkGram.Notifiers.ChatMessage

/-!
# Delivery of chat messages

Every message of a conversation is set under the milliseconds of its sender's clock, with no
regard to what is stored there. However the calls interleave, the conversation ends as
the sequence of these writes, so that no message is lost exactly when no two readings
agree and none names a document that was there before.
-/

namespace TekkGram

open Interaction Async

section Collection

variable {docs : Collection} {writes : List (String × Doc)} {id : String} {d : Doc}

/-- Set documents one after another. -/
def Collection.insertAll (docs : Collection) (writes : List (String × Doc)) : Collection :=
  writes.foldl (fun docs write => docs.insert write.1 write.2) docs

/-- An id that is not written keeps its document. -/
theorem Collection.getElem?_insertAll_of_not_mem (h : ∀ d, (id, d) ∉ writes) :
    (docs.insertAll writes)[id]? = docs[id]? := by
  induction writes generalizing docs with
  | nil => rfl
  | cons write writes ih =>
    have hne : write.1 ≠ id := by
      rintro rfl
      exact h write.2 (List.mem_cons_self ..)
    change (Collection.insertAll (docs.insert write.1 write.2) writes)[id]? = docs[id]?
    rw [ih fun d hd => h d (List.mem_cons_of_mem _ hd), Collection.getElem?_insert_of_ne hne]

/-- An id that is written with one document only holds it. -/
theorem Collection.getElem?_insertAll_of_mem (hmem : (id, d) ∈ writes)
    (hone : ∀ d', (id, d') ∈ writes → d' = d) : (docs.insertAll writes)[id]? = some d := by
  induction writes generalizing docs with
  | nil => cases hmem
  | cons write writes ih =>
    have hrest : ∀ d', (id, d') ∈ writes → d' = d := fun d' hd' =>
      hone d' (List.mem_cons_of_mem _ hd')
    by_cases hlater : (id, d) ∈ writes
    · exact ih hlater hrest
    · obtain rfl : write = (id, d) := ((List.mem_cons.mp hmem).resolve_right hlater).symm
      have hnever : ∀ d', (id, d') ∉ writes := fun d' hd' => hlater (hrest d' hd' ▸ hd')
      change (Collection.insertAll (docs.insert id d) writes)[id]? = some d
      rw [Collection.getElem?_insertAll_of_not_mem hnever, Collection.getElem?_insert_self]

theorem Collection.insertAll_append (writes' : List (String × Doc)) :
    docs.insertAll (writes ++ writes') = (docs.insertAll writes).insertAll writes' :=
  List.foldl_append

/-- Documents set one after another are all found, under new ids of their own and beside every
old one, exactly when their ids are new and pairwise different. -/
theorem Collection.insertAll_keeps_iff (docs : Collection) {n : Nat} {ids : Fin n → String}
    {written : Fin n → Doc} {stored : Fin n → Doc → Prop} (hstored : ∀ i, stored i (written i))
    (hwrites : ∀ id d, (id, d) ∈ writes ↔ ∃ i, id = ids i ∧ d = written i) :
    ((∃ idOf : Fin n → String, Function.Injective idOf ∧ ∀ i, idOf i ∉ docs ∧
        ∃ d, (docs.insertAll writes)[idOf i]? = some d ∧ stored i d) ∧
      ∀ (id : String) (d : Doc), docs[id]? = some d → (docs.insertAll writes)[id]? = some d) ↔
    Function.Injective ids ∧ ∀ i, ids i ∉ docs := by
  constructor
  · rintro ⟨⟨idOf, hinj, hown⟩, -⟩
    -- a new id that holds a document was written, so the `n` ids are those of the writes
    have hwritten : ∀ i, ∃ j, idOf i = ids j := by
      intro i
      obtain ⟨hnew, d, hd, -⟩ := hown i
      by_contra hnone
      have hnever : ∀ d, (idOf i, d) ∉ writes := by
        intro d hmem
        obtain ⟨j, hj, -⟩ := (hwrites _ _).mp hmem
        exact hnone ⟨j, hj⟩
      rw [getElem?_insertAll_of_not_mem hnever, Std.ExtTreeMap.getElem?_eq_none hnew] at hd
      cases hd
    choose f hf using hwritten
    have hf_inj : Function.Injective f := fun i j hij => hinj (by rw [hf, hf, hij])
    have hf_surj : Function.Surjective f := Finite.injective_iff_surjective.mp hf_inj
    constructor
    · intro i j hij
      obtain ⟨i', rfl⟩ := hf_surj i
      obtain ⟨j', rfl⟩ := hf_surj j
      rw [hinj ((hf i').trans (hij.trans (hf j').symm))]
    · intro i
      obtain ⟨i', rfl⟩ := hf_surj i
      rw [← hf]
      exact (hown i').1
  · rintro ⟨hinj, hnew⟩
    refine ⟨⟨ids, hinj, fun i => ⟨hnew i, written i, ?_, hstored i⟩⟩, fun id d hd => ?_⟩
    · refine getElem?_insertAll_of_mem ((hwrites _ _).mpr ⟨i, rfl, rfl⟩) fun d hmem => ?_
      obtain ⟨j, hj, rfl⟩ := (hwrites _ _).mp hmem
      rw [hinj hj]
    · rw [getElem?_insertAll_of_not_mem, hd]
      intro d' hmem
      obtain ⟨i, rfl, -⟩ := (hwrites _ _).mp hmem
      rw [Std.ExtTreeMap.getElem?_eq_none (hnew i)] at hd
      cases hd

end Collection

/-- A message that a participant sends. -/
structure Outgoing where
  currentUserId : UserId
  receiverId : UserId
  message : String
  files : List File
  deriving DecidableEq, Repr

/-- The run of a call of `sendMessage`. -/
def Outgoing.program (m : Outgoing) (groupChatId : ChatGroupId) :
    Program (Fallible Exc Ans) (Except Exc Bool × Unit) :=
  ChatMessageNotifier.sendMessage groupChatId m.currentUserId m.receiverId m.message m.files ()

/-- Calls under way, over the shared world. -/
abbrev ChatPool := Pool World (Fallible Exc Ans) (Except Exc Bool × Unit)

/-- A document holds the sender, the receiver and the text of a message. -/
structure Outgoing.StoredAs (m : Outgoing) (d : Doc) : Prop where
  sender : d.field FirebaseFieldName.sender = .string m.currentUserId
  receiver : d.field FirebaseFieldName.receiver = .string m.receiverId
  message : d.field FirebaseFieldName.message = .string m.message

theorem Outgoing.storedAs_messagePayload (m : Outgoing) (lists : MediaLists) (t : Timestamp) :
    m.StoredAs ((ChatMessageNotifier.messagePayload m.currentUserId m.receiverId m.message m.files
      lists).resolve t) := by
  unfold ChatMessageNotifier.messagePayload
  by_cases hfiles : m.files = []
  · rw [if_pos hfiles]
    exact ⟨rfl, rfl, rfl⟩
  · rw [if_neg hfiles]
    exact ⟨rfl, rfl, rfl⟩

/-- Every call has a new document of its own, and every old document is unchanged. -/
structure EveryMessageKept (groupChatId : ChatGroupId) (messages : List Outgoing)
    (w w' : World) : Prop where
  own : ∃ idOf : Fin messages.length → String, Function.Injective idOf ∧ ∀ i,
    idOf i ∉ w.firestore (.chat groupChatId) ∧
      ∃ d, (w'.firestore (.chat groupChatId))[idOf i]? = some d ∧ messages[i].StoredAs d
  old : ∀ (id : String) (d : Doc), (w.firestore (.chat groupChatId))[id]? = some d →
    (w'.firestore (.chat groupChatId))[id]? = some d

/-- The reading of the clock that an event returned. -/
def readingOf : AppEvent → Option DateTime
  | ⟨.now, .ok now⟩ => some now
  | _ => none

/-- The first reading of the clock in a trace. -/
def clockReading (tr : List AppEvent) : Option DateTime := tr.findSome? readingOf

theorem clockReading_append {tr : List AppEvent} {now : DateTime} (h : clockReading tr = some now)
    (tr' : List AppEvent) : clockReading (tr ++ tr') = some now := by
  simp only [clockReading] at h ⊢
  rw [List.findSome?_append, h, Option.some_or]

/-- The milliseconds that a thread read off its clock. -/
def sentAt (moves : List (Move (Fallible Exc Ans))) (i : Nat) : Option Int :=
  (clockReading (eventsOf i moves)).map (·.millisecondsSinceEpoch)

/-- The readings of all calls differ, and none names a document that was there before. -/
structure ReadingsDiffer (groupChatId : ChatGroupId) (n : Nat) (w : World)
    (moves : List (Move (Fallible Exc Ans))) : Prop where
  distinct : ∀ i j, i < n → j < n → sentAt moves i = sentAt moves j → i = j
  new : ∀ (i : Nat) (ms : Int), i < n → sentAt moves i = some ms →
    toString ms ∉ w.firestore (.chat groupChatId)

/-- The document that an event has set in a conversation. -/
def messageSet (groupChatId : ChatGroupId) : AppEvent → Option (String × Doc)
  | ⟨.commit [.set path id payload], .ok t⟩ =>
    if path = .chat groupChatId then some (id, payload.resolve t) else none
  | _ => none

/-- The calls of `sendMessage`. -/
def Call.Sends (groupChatId : ChatGroupId) (c : Call) : Prop :=
  c.Media ∨ c = .now ∨ c = .setLoading .sendChatMessage true ∨
    ∃ id payload, c = .commit [.set (.chat groupChatId) id payload]

/-- The calls of a loop over files set no document and read no clock. -/
theorem Call.Media.not_sends {tr : List AppEvent} (h : ∀ e ∈ tr, e.call.Media)
    (groupChatId : ChatGroupId) :
    clockReading tr = none ∧ tr.filterMap (messageSet groupChatId) = [] := by
  have hone : ∀ e ∈ tr, readingOf e = none ∧ messageSet groupChatId e = none := by
    rintro ⟨c, r⟩ he
    have hc := h _ he
    cases c with
    | now => simp at hc
    | commit writes => simp at hc
    | _ => exact ⟨rfl, rfl⟩
  exact ⟨List.findSome?_eq_none_iff.mpr fun e he => (hone e he).1,
    List.filterMap_eq_nil_iff.mpr fun e he => (hone e he).2⟩

section Sends

variable {W : Type} {env : Environment W (Fallible Exc Ans)}

open ChatMessageNotifier

theorem sendMessage_calls (groupChatId : ChatGroupId) (m : Outgoing) :
    (m.program groupChatId).Calls (Call.Sends groupChatId) := by
  have hset : ∀ id messageChat, (setMessage groupChatId id messageChat :
      Action MediaLists Unit).Calls (Call.Sends groupChatId) := fun id messageChat =>
    calls_bind (calls_call (.inr (.inr (.inr ⟨id, messageChat, rfl⟩)))) fun _ => calls_pure
  have hsend : (send groupChatId m.currentUserId m.receiverId m.message m.files).Calls
      (Call.Sends groupChatId) := by
    refine calls_bind (calls_call (.inr (.inl rfl))) fun now => ?_
    by_cases hfiles : m.files = []
    · simp only [if_pos hfiles]
      exact calls_bind (hset _ _) fun _ => calls_pure
    · simp only [if_neg hfiles]
      refine calls_bind (calls_forEach fun file _ s => ?_) fun _ =>
        calls_bind calls_get fun lists =>
        calls_bind (hset _ _) fun _ => calls_pure
      exact (sendImageFile_calls m.currentUserId file s).mono fun c hc => .inl hc
  refine calls_withLocals (calls_bind (calls_call (.inr (.inr (.inl rfl)))) fun _ => ?_) ()
  exact calls_tryFinally (calls_tryCatch hsend fun _ => calls_pure)
    (calls_call (.inl (by simp)))

/-- What a `try` block that returns `true` has done in any environment: it has read the clock
once and set one document, the message under the milliseconds it read. -/
theorem send_sets (groupChatId currentUserId receiverId message : String) (files : List File)
    (w : W) :
    (send groupChatId currentUserId receiverId message files).wp env
      (fun tr out _ _ => out = .ok true → ∃ (now : DateTime) (lists : MediaLists) (t : Timestamp),
        clockReading tr = some now ∧
        tr.filterMap (messageSet groupChatId) = [(toString now.millisecondsSinceEpoch,
          (messagePayload currentUserId receiverId message files lists).resolve t)]) .empty w := by
  have hset : ∀ (tr : List AppEvent) (now : DateTime) (lists : MediaLists) (w : W),
      clockReading tr = some now → tr.filterMap (messageSet groupChatId) = [] →
      (do
        setMessage groupChatId (toString now.millisecondsSinceEpoch)
          (messagePayload currentUserId receiverId message files lists)
        return true : Action MediaLists Bool).wp env
        (fun tr' out _ _ => out = .ok true →
          ∃ (now : DateTime) (lists : MediaLists) (t : Timestamp),
            clockReading (tr ++ tr') = some now ∧
            (tr ++ tr').filterMap (messageSet groupChatId) = [(toString now.millisecondsSinceEpoch,
              (messagePayload currentUserId receiverId message files lists).resolve t)])
        lists w := by
    intro tr now lists w hclock hnone
    unfold setMessage
    rw [wp_bind, wp_bind, wp_call]
    intro r w' _
    cases r with
    | error e => simp
    | ok t =>
      rw [ends_ok, wp_pure, ends_ok, wp_pure]
      intro _
      refine ⟨now, lists, t, ?_, ?_⟩
      · exact clockReading_append hclock _
      · simp [hnone, messageSet]
  unfold send
  rw [wp_bind, wp_call]
  intro r w₁ _
  cases r with
  | error e => simp
  | ok now =>
    rw [ends_ok]
    have hnow := hset [⟨.now, .ok now⟩] now
    by_cases hfiles : files = []
    · have hpayload : messagePayload currentUserId receiverId message files .empty =
          textPayload currentUserId receiverId message := if_pos hfiles
      simp only [if_pos hfiles]
      have hwp := hnow .empty w₁ rfl rfl
      rw [hpayload] at hwp
      exact hwp
    · have hpayload : ∀ lists, messagePayload currentUserId receiverId message files lists =
          imagesPayload currentUserId receiverId message lists := fun _ => if_neg hfiles
      simp only [if_neg hfiles]
      refine wp_bind.mpr (wp_mono (wp_calls (calls_forEach fun file _ =>
        sendImageFile_calls currentUserId file) _ _) ?_)
      intro tr out lists w₂ hmedia
      cases out with
      | error e => simp
      | ok _ =>
        obtain ⟨hclock, hnone⟩ := Call.Media.not_sends hmedia groupChatId
        rw [ends_ok, wp_bind, wp_get, ends_ok]
        have hwp := hset (⟨.now, .ok now⟩ :: tr) now lists w₂ rfl hnone
        rw [hpayload] at hwp
        simpa only [hpayload, List.nil_append, List.singleton_append, List.cons_append,
          List.append_assoc] using hwp

/-- What a call that returns `true` has done in any environment. -/
theorem program_sets (groupChatId : ChatGroupId) (m : Outgoing) {w w' : W} {tr : List AppEvent}
    {s : Unit} (h : Runs env w (m.program groupChatId) tr (.ok true, s) w') :
    ∃ (now : DateTime) (lists : MediaLists) (t : Timestamp), clockReading tr = some now ∧
      tr.filterMap (messageSet groupChatId) = [(toString now.millisecondsSinceEpoch,
        (messagePayload m.currentUserId m.receiverId m.message m.files lists).resolve t)] := by
  suffices hwp : (sendMessage groupChatId m.currentUserId m.receiverId m.message m.files).wp env
      (fun tr out _ _ => out = .ok true → ∃ (now : DateTime) (lists : MediaLists) (t : Timestamp),
        clockReading tr = some now ∧
        tr.filterMap (messageSet groupChatId) = [(toString now.millisecondsSinceEpoch,
          (messagePayload m.currentUserId m.receiverId m.message m.files lists).resolve t)])
      () w from hwp.elim h rfl
  unfold sendMessage
  rw [wp_withLocals, wp_bind, wp_call]
  intro r w₁ _
  cases r with
  | error e => simp
  | ok _ =>
    rw [ends_ok, wp_tryFinally, wp_tryCatch]
    refine wp_mono (send_sets groupChatId _ _ _ _ w₁) ?_
    intro tr out lists w₂ hsets
    cases out with
    | error e =>
      rw [ends_error, wp_pure, wp_call]
      intro r w₃ _
      cases r <;> simp
    | ok sent =>
      rw [ends_ok, wp_call]
      intro r w₃ _
      cases r with
      | error e => simp
      | ok _ =>
        rw [ends_ok]
        intro hsent
        obtain ⟨now, lists, t, hclock, hset⟩ := hsets hsent
        refine ⟨now, lists, t, ?_, ?_⟩
        · change clockReading (tr ++ _) = some now
          exact clockReading_append hclock _
        · change (tr ++ _).filterMap (messageSet groupChatId) = _
          rw [List.filterMap_append, hset]
          rfl

end Sends

section Steps

variable {groupChatId : ChatGroupId} {messages : List Outgoing} {w w' : World}
  {moves : List (Move (Fallible Exc Ans))} {P : ChatPool}

/-- A call of `sendMessage` changes the conversation by the document it sets. -/
theorem Call.Sends.step {c : Call} (h : c.Sends groupChatId) {r : Fallible Exc Ans c}
    (hstep : World.step w c r = some w') : w'.firestore (.chat groupChatId) =
      (w.firestore (.chat groupChatId)).insertAll (messageSet groupChatId ⟨c, r⟩).toList := by
  cases r with
  | error e =>
    have hnone : messageSet groupChatId ⟨c, .error e⟩ = none := by
      unfold messageSet
      split
      · rename_i heq
        cases heq
      · rfl
    rw [World.step_error hstep, hnone]
    rfl
  | ok a =>
    rcases h with hmedia | rfl | rfl | ⟨id, payload, rfl⟩
    · have hnone : [(⟨c, .ok a⟩ : AppEvent)].filterMap (messageSet groupChatId) = [] :=
        (Call.Media.not_sends (by simpa using hmedia) groupChatId).2
      have hsame := hmedia.firestore hstep
      rw [hsame]
      cases hset : messageSet groupChatId ⟨c, .ok a⟩ with
      | none => rfl
      | some write => simp [hset] at hnone
    · cases hstep
      rfl
    · cases hstep
      rfl
    · cases hstep
      simp [messageSet, World.write, Collection.insertAll]

/-- A conversation ends as the sequence of the documents that were set. -/
theorem firestore_of_steps (h : Pool.Steps World.step (fun _ _ _ => True)
      ⟨w, messages.map fun m => m.program groupChatId⟩ moves P) :
    P.state.firestore (.chat groupChatId) = (w.firestore (.chat groupChatId)).insertAll
      (moves.filterMap fun m => messageSet groupChatId m.event) := by
  refine h.frame (Call.Sends groupChatId) (fun moves w' =>
    w'.firestore (.chat groupChatId) = (w.firestore (.chat groupChatId)).insertAll
      (moves.filterMap fun m => messageSet groupChatId m.event)) ?_ rfl ?_
  · intro p hp
    obtain ⟨m, -, rfl⟩ := List.mem_map.mp hp
    exact sendMessage_calls groupChatId m
  · intro moves w₁ m w₂ hsends hstep hw₁
    rw [hsends.step hstep, hw₁, List.filterMap_append, Collection.insertAll_append]
    rfl

/-- In a finished interleaving each call has read its clock and set its own message. -/
theorem sets_of_steps (h : Pool.Steps World.step (fun _ _ _ => True)
      ⟨w, messages.map fun m => m.program groupChatId⟩ moves P)
    (hdone : ∀ p ∈ P.threads, p = .done (.ok true, ())) (i : Fin messages.length) :
    ∃ (now : DateTime) (d : Doc), sentAt moves i = some now.millisecondsSinceEpoch ∧
      (eventsOf i moves).filterMap (messageSet groupChatId) =
        [(toString now.millisecondsSinceEpoch, d)] ∧ messages[i].StoredAs d := by
  have hthread : (messages.map fun m => m.program groupChatId)[i.val]? =
      some (messages[i].program groupChatId) := by simp
  obtain ⟨q, hq, hfollows⟩ := h.follows hthread
  obtain rfl := hdone q (List.mem_of_getElem? hq)
  obtain ⟨now, lists, t, hclock, hset⟩ := program_sets groupChatId messages[i] hfollows.runs
  refine ⟨now, _, ?_, hset, messages[i].storedAs_messagePayload lists t⟩
  rw [sentAt, hclock, Option.map_some]

/-- The documents set in a finished interleaving are those of its calls. -/
theorem mem_sets_iff (h : Pool.Steps World.step (fun _ _ _ => True)
      ⟨w, messages.map fun m => m.program groupChatId⟩ moves P)
    {ids : Fin messages.length → String} {docs : Fin messages.length → Doc}
    (hset : ∀ i : Fin messages.length,
      (eventsOf i moves).filterMap (messageSet groupChatId) = [(ids i, docs i)])
    (id : String) (d : Doc) :
    (id, d) ∈ (moves.filterMap fun m => messageSet groupChatId m.event) ↔
      ∃ i, id = ids i ∧ d = docs i := by
  simp only [List.mem_filterMap]
  constructor
  · rintro ⟨m, hm, he⟩
    have hlt : m.thread < messages.length := by simpa using h.thread_lt m hm
    have hmem : (id, d) ∈ (eventsOf m.thread moves).filterMap (messageSet groupChatId) :=
      List.mem_filterMap.mpr ⟨m.event, mem_eventsOf.mpr ⟨m, hm, rfl, rfl⟩, he⟩
    rw [hset ⟨m.thread, hlt⟩, List.mem_singleton, Prod.mk.injEq] at hmem
    exact ⟨⟨m.thread, hlt⟩, hmem⟩
  · rintro ⟨i, rfl, rfl⟩
    have hmem : (ids i, docs i) ∈ (eventsOf i moves).filterMap (messageSet groupChatId) := by
      rw [hset i]
      exact List.mem_singleton_self _
    obtain ⟨e, hevent, he⟩ := List.mem_filterMap.mp hmem
    obtain ⟨m, hm, -, rfl⟩ := mem_eventsOf.mp hevent
    exact ⟨m, hm, he⟩

/-- Calls of `sendMessage` in one conversation, interleaved in any order and all returning
`true`, lose no message exactly when the readings of their clocks differ and name no document
that was there before. -/
theorem everyMessageKept_iff_of_steps (messages : List Outgoing)
    (h : Pool.Steps World.step (fun _ _ _ => True)
      ⟨w, messages.map fun m => m.program groupChatId⟩ moves P)
    (hdone : ∀ p ∈ P.threads, p = .done (.ok true, ())) :
    EveryMessageKept groupChatId messages w P.state ↔
      ReadingsDiffer groupChatId messages.length w moves := by
  choose now docs hsent hset hstored using sets_of_steps h hdone
  have hkeeps := Collection.insertAll_keeps_iff (w.firestore (.chat groupChatId)) hstored
    (mem_sets_iff h hset)
  rw [← firestore_of_steps h] at hkeeps
  have hkept : EveryMessageKept groupChatId messages w P.state ↔
      Function.Injective (fun i => toString (now i).millisecondsSinceEpoch) ∧
        ∀ i, toString (now i).millisecondsSinceEpoch ∉ w.firestore (.chat groupChatId) :=
    ⟨fun hk => hkeeps.mp ⟨hk.own, hk.old⟩, fun hd => ⟨(hkeeps.mpr hd).1, (hkeeps.mpr hd).2⟩⟩
  rw [hkept]
  constructor
  · rintro ⟨hinj, hnew⟩
    refine ⟨fun i j hi hj hij => ?_, fun i ms hi hms => ?_⟩
    · have hi' := hsent ⟨i, hi⟩
      have hj' := hsent ⟨j, hj⟩
      have hms := Option.some.inj (hi'.symm.trans (hij.trans hj'))
      exact congrArg Fin.val (hinj (congrArg toString hms))
    · obtain rfl := Option.some.inj ((hsent ⟨i, hi⟩).symm.trans hms)
      exact hnew ⟨i, hi⟩
  · rintro ⟨hdistinct, hnew⟩
    refine ⟨fun i j hij => ?_, fun i => hnew i _ i.isLt (hsent i)⟩
    refine Fin.ext (hdistinct i j i.isLt j.isLt ?_)
    rw [hsent, hsent, Int.repr_injective hij]

end Steps

/-- A call has returned `true`. -/
def returnedTrue : Program (Fallible Exc Ans) (Except Exc Bool × Unit) → Bool
  | .done (.ok sent, ()) => sent
  | _ => false

theorem eq_done_of_returnedTrue {p : Program (Fallible Exc Ans) (Except Exc Bool × Unit)}
    (h : returnedTrue p = true) : p = .done (.ok true, ()) := by
  match p with
  | .done (.ok sent, ()) =>
    obtain rfl : sent = true := h
    rfl
  | .done (.error e, ()) => cases h
  | .call c next => cases h

/-- Two participants write to each other at the same time, one millisecond apart. -/
theorem everyMessageKept_iff_of_steps_two_messages :
    ∃ moves P, Pool.Steps World.step (fun _ _ _ => True)
      ⟨World.initial, [Outgoing.program ⟨"u", "v", "hi", []⟩ "u-v",
        Outgoing.program ⟨"v", "u", "hello", []⟩ "u-v"]⟩ moves P ∧
      EveryMessageKept "u-v" [⟨"u", "v", "hi", []⟩, ⟨"v", "u", "hello", []⟩] World.initial
        P.state := by
  have hexec : (Pool.exec World.step World.working (fun _ _ => true) [0, 1, 0, 1, 0, 1, 0, 1] []
      ⟨World.initial, [Outgoing.program ⟨"u", "v", "hi", []⟩ "u-v",
        Outgoing.program ⟨"v", "u", "hello", []⟩ "u-v"]⟩).any
        (fun r => r.2.threads.all returnedTrue &&
          (sentAt r.1 0 = some 2 && sentAt r.1 1 = some 3)) = true := by decide +kernel
  obtain ⟨moves, P, hsteps, htest⟩ := Pool.exec_any (fun _ _ _ _ => trivial) hexec
  obtain ⟨hdone, hsent⟩ := (Bool.and_eq_true _ _).mp htest
  obtain ⟨hfirst, hsecond⟩ := (Bool.and_eq_true _ _).mp hsent
  replace hfirst := of_decide_eq_true hfirst
  replace hsecond := of_decide_eq_true hsecond
  have hdiffer : ReadingsDiffer "u-v" 2 World.initial moves := by
    refine ⟨fun i j hi hj hij => ?_, fun i ms hi hms => ?_⟩
    · match i, j with
      | 0, 0 => rfl
      | 1, 1 => rfl
      | 0, 1 => simp [hfirst, hsecond] at hij
      | 1, 0 => simp [hfirst, hsecond] at hij
    · simp [World.initial]
  exact ⟨moves, P, hsteps, (everyMessageKept_iff_of_steps
    [⟨"u", "v", "hi", []⟩, ⟨"v", "u", "hello", []⟩] hsteps fun p hp =>
      eq_done_of_returnedTrue (List.all_eq_true.mp hdone p hp)).mpr hdiffer⟩

/-- Two messages sent in the same millisecond: the second replaces the first, and both calls
return `true`. -/
theorem not_everyMessageKept_of_same_millisecond :
    ¬ ∀ (groupChatId : ChatGroupId) (messages : List Outgoing) w moves P,
      Pool.Steps World.step (fun _ _ _ => True)
        ⟨w, messages.map fun m => m.program groupChatId⟩ moves P →
      (∀ p ∈ P.threads, p = .done (.ok true, ())) →
      EveryMessageKept groupChatId messages w P.state := by
  intro hall
  have hexec : (Pool.exec World.step World.simultaneous (fun _ _ => true)
      [0, 1, 0, 1, 0, 1, 0, 1] []
      ⟨World.initial, [Outgoing.program ⟨"u", "v", "hi", []⟩ "u-v",
        Outgoing.program ⟨"v", "u", "hello", []⟩ "u-v"]⟩).any
        (fun r => r.2.threads.all returnedTrue &&
          (r.2.state.firestore (.chat "u-v")).toList.all fun kv => kv.1 = "0") = true := by
    decide +kernel
  obtain ⟨moves, P, hsteps, htest⟩ := Pool.exec_any (fun _ _ _ _ => trivial) hexec
  obtain ⟨hdone, honly⟩ := (Bool.and_eq_true _ _).mp htest
  have hkept := hall "u-v" [⟨"u", "v", "hi", []⟩, ⟨"v", "u", "hello", []⟩] World.initial moves P
    hsteps fun p hp => eq_done_of_returnedTrue (List.all_eq_true.mp hdone p hp)
  obtain ⟨idOf, hinj, hown⟩ := hkept.own
  have hzero : ∀ i, idOf i = "0" := by
    intro i
    obtain ⟨-, d, hd, -⟩ := hown i
    have hmem := Std.ExtTreeMap.mem_toList_iff_getElem?_eq_some.mpr hd
    exact of_decide_eq_true (List.all_eq_true.mp honly _ hmem)
  exact absurd (hinj ((hzero 0).trans (hzero 1).symm)) (by decide)

end TekkGram
