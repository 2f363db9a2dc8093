import TekkGram.App.Operations
import TekkGram.Failure.FirestoreAtomic

/-!
# Every document can be read

All operations of the app, deletions, likes, logins and profile edits among them, write documents
that the constructors read: posts, comments, messages and profiles. So does every interleaving of
them on several devices.
-/

namespace TekkGram

open Interaction Async

/-- The constructor `UserInfoModel.fromMap`, which throws without a user id. -/
def UserInfoModel.fromMap (json : Doc) : Option UserInfoModel := do
  let userId ← (json.field FirebaseFieldName.userId).asString
  UserInfoModel.fromJson json userId

/-- A value that is cast to `String?`. -/
def Value.IsText (v : Value) : Prop := v = .null ∨ ∃ s, v = .string s

/-- The document holds a profile. -/
structure StoresProfile (d : Doc) : Prop where
  userId : ∃ userId, d.field FirebaseFieldName.userId = .string userId
  displayName : (d.field FirebaseFieldName.displayName).IsText
  email : (d.field FirebaseFieldName.email).IsText
  phone : (d.field FirebaseFieldName.phone).IsText
  imageUrl : (d.field FirebaseFieldName.imageUrl).IsText

/-- Fields that an edit may write to a profile. -/
def EditsProfile (fields : Doc) : Prop :=
  ∀ field ∈ fields, field.1 ≠ FirebaseFieldName.userId ∧ field.2.IsText

/-- The document is one of its collection. -/
def StoredIn (path : CollectionPath) (id : String) (d : Doc) : Prop :=
  StoresRecord path id d ∧ (path = .users → StoresProfile d)

/-- Every document has a property. -/
def EveryDocument (D : CollectionPath → String → Doc → Prop)
    (firestore : CollectionPath → Collection) : Prop :=
  ∀ (path : CollectionPath) (id : String) (d : Doc), (firestore path)[id]? = some d → D path id d

/-- Every document is one of its collection. -/
abbrev EveryDocumentStored : (CollectionPath → Collection) → Prop := EveryDocument StoredIn

/-- Calls that create documents with a property and keep it. -/
def Call.Preserves (D : CollectionPath → String → Doc → Prop) : Call → Prop
  | .add path payload => ∀ id t, D path id (payload.resolve t)
  | .update path id fields => ∀ d, D path id d → D path id (d.merge fields)
  | .commit writes => ∀ path id payload, .set path id payload ∈ writes →
      ∀ t, D path id (payload.resolve t)
  | _ => True

section Profiles

theorem Value.isText_string (s : String) : (Value.string s).IsText := .inr ⟨s, rfl⟩

theorem Value.IsText.orElse {v : Value} (h : v.IsText) :
    (∃ s, v.orElse Value.asString "" = some s) ∧
      ∃ s, v.orElse (fun v => v.asString.map some) none = some s := by
  rcases h with rfl | ⟨s, rfl⟩
  · exact ⟨⟨_, rfl⟩, _, rfl⟩
  · exact ⟨⟨_, rfl⟩, _, rfl⟩

/-- A stored profile is read. -/
theorem StoresProfile.fromMap {d : Doc} (h : StoresProfile d) :
    ∃ user, UserInfoModel.fromMap d = some user := by
  obtain ⟨userId, huser⟩ := h.userId
  obtain ⟨displayName, hname⟩ := h.displayName.orElse.1
  obtain ⟨email, hemail⟩ := h.email.orElse.2
  obtain ⟨phone, hphone⟩ := h.phone.orElse.2
  obtain ⟨imageUrl, himage⟩ := h.imageUrl.orElse.2
  refine ⟨⟨userId, displayName, email, phone, imageUrl⟩, ?_⟩
  simp only [UserInfoModel.fromMap, UserInfoModel.fromJson, huser, hname, hemail, hphone, himage,
    Value.asString_string, Option.bind_eq_bind, Option.bind_some, Option.pure_def]

/-- A merge of texts writes texts. -/
theorem EditsProfile.isText {d fields : Doc} (h : EditsProfile fields) {key : String}
    (hd : (d.field key).IsText) : ((d.merge fields).field key).IsText := by
  rw [Doc.field_merge]
  cases hlookup : fields.reverse.lookup key with
  | none => exact hd
  | some v =>
    obtain ⟨before, after, heq, -⟩ := List.lookup_eq_some_iff.mp hlookup
    have hmem : (key, v) ∈ fields := List.mem_reverse.mp (heq ▸ by simp)
    exact (h _ hmem).2

/-- An edited profile is a profile of the same user. -/
theorem EditsProfile.storesProfile {d fields : Doc} (h : EditsProfile fields)
    (hd : StoresProfile d) : StoresProfile (d.merge fields) := by
  refine ⟨?_, h.isText hd.displayName, h.isText hd.email, h.isText hd.phone, h.isText hd.imageUrl⟩
  rw [Doc.field_merge]
  cases hlookup : fields.reverse.lookup FirebaseFieldName.userId with
  | none => exact hd.userId
  | some v =>
    obtain ⟨before, after, heq, -⟩ := List.lookup_eq_some_iff.mp hlookup
    have hmem : (FirebaseFieldName.userId, v) ∈ fields := List.mem_reverse.mp (heq ▸ by simp)
    exact absurd rfl (h _ hmem).1

theorem storesProfile_userInfoPayload (userId : UserId)
    (displayName email phone imageUrl : Option String) (t : Timestamp) :
    StoresProfile ((userInfoPayload userId displayName email phone imageUrl).resolve t) :=
  ⟨⟨userId, rfl⟩, .inr ⟨_, rfl⟩, .inr ⟨_, rfl⟩, .inr ⟨_, rfl⟩, .inr ⟨_, rfl⟩⟩

theorem editsProfile_updatedFields (displayName : String) (email phone imageUrl : Option String) :
    EditsProfile (UserInfoStorage.updatedFields displayName email phone imageUrl) := by
  intro field hfield
  simp only [UserInfoStorage.updatedFields, List.mem_cons, List.not_mem_nil, or_false] at hfield
  rcases hfield with rfl | rfl | rfl | rfl <;>
    exact ⟨by dsimp only; decide, Value.isText_string _⟩

theorem editsProfile_profileFields (userData : Option UserInfoModel) (imageUrl : String) :
    EditsProfile (ImageUploadNotifier.profileFields userData imageUrl) := by
  intro field hfield
  simp only [ImageUploadNotifier.profileFields, List.mem_cons, List.not_mem_nil, or_false]
    at hfield
  rcases hfield with rfl | rfl | rfl | rfl
  · refine ⟨by dsimp only; decide, ?_⟩
    cases userData with
    | none => exact .inl rfl
    | some user => exact Value.isText_string _
  all_goals exact ⟨by dsimp only; decide, Value.isText_string _⟩

end Profiles

section Step

variable {w w' : World} {path : CollectionPath} {id : String} {d : Doc}

theorem World.getElem?_setDoc {path' : CollectionPath} {id' : String} {d' : Doc}
    (h : ((w.setDoc path' id' d').firestore path)[id]? = some d) :
    (w.firestore path)[id]? = some d ∨ path = path' ∧ id = id' ∧ d = d' := by
  rw [World.setDoc_firestore] at h
  by_cases hpath : path = path'
  · subst hpath
    rw [Function.update_self, Collection.getElem?_insert] at h
    split at h
    · rename_i hid
      exact .inr ⟨rfl, hid.symm, (Option.some.inj h).symm⟩
    · exact .inl h
  · rw [Function.update_of_ne hpath] at h
    exact .inl h

theorem World.getElem?_eraseDoc {path' : CollectionPath} {id' : String}
    (h : ((w.eraseDoc path' id').firestore path)[id]? = some d) :
    (w.firestore path)[id]? = some d := by
  rw [World.eraseDoc_firestore] at h
  by_cases hpath : path = path'
  · subst hpath
    rw [Function.update_self, Collection.getElem?_erase] at h
    split at h
    · cases h
    · exact h
  · rw [Function.update_of_ne hpath] at h
    exact h

/-- A document after a transaction was there before it, or is set by it. -/
theorem World.getElem?_foldl_write {writes : List Write} {t : Timestamp}
    (h : ((writes.foldl (fun w => w.write t) w).firestore path)[id]? = some d) :
    (w.firestore path)[id]? = some d ∨
      ∃ payload, .set path id payload ∈ writes ∧ d = payload.resolve t := by
  induction writes generalizing w with
  | nil => exact .inl h
  | cons write writes ih =>
    rcases ih h with h | ⟨payload, hmem, hd⟩
    · cases write with
      | set path' id' payload =>
        rcases World.getElem?_setDoc h with h | ⟨rfl, rfl, rfl⟩
        · exact .inl h
        · exact .inr ⟨payload, List.mem_cons_self .., rfl⟩
      | delete path' id' => exact .inl (World.getElem?_eraseDoc h)
    · exact .inr ⟨payload, List.mem_cons_of_mem _ hmem, hd⟩

/-- How a document is there after a call: as it was before, or as the call has written it. -/
inductive StoredBy (w : World) : AppEvent → CollectionPath → String → Doc → Prop
  | kept {e : AppEvent} {path : CollectionPath} {id : String} {d : Doc}
      (h : (w.firestore path)[id]? = some d) : StoredBy w e path id d
  | added {path : CollectionPath} {payload : Doc} {id : String} {t : Timestamp} :
      StoredBy w ⟨.add path payload, .ok ⟨id, t⟩⟩ path id (payload.resolve t)
  | merged {path : CollectionPath} {id : String} {fields d : Doc} {r}
      (h : (w.firestore path)[id]? = some d) :
      StoredBy w ⟨.update path id fields, r⟩ path id (d.merge fields)
  | set {writes : List Write} {path : CollectionPath} {id : String} {payload : Doc}
      {t : Timestamp} (h : .set path id payload ∈ writes) :
      StoredBy w ⟨.commit writes, .ok t⟩ path id (payload.resolve t)

/-- What one call can do to a document. -/
theorem World.step_storedBy {c : Call} {r : Fallible Exc Ans c}
    (hstep : World.step w c r = some w') (hd : (w'.firestore path)[id]? = some d) :
    StoredBy w ⟨c, r⟩ path id d := by
  cases r with
  | error e => exact .kept (World.step_error hstep ▸ hd)
  | ok a =>
    cases c with
    | add path' payload =>
      simp only [World.step, World.perform] at hstep
      split at hstep <;> cases hstep
      rcases World.getElem?_setDoc hd with hd | ⟨rfl, rfl, rfl⟩
      · exact .kept hd
      · exact .added
    | update path' id' fields =>
      simp only [World.step, World.perform] at hstep
      split at hstep <;> cases hstep
      rename_i hbefore
      rcases World.getElem?_setDoc hd with hd | ⟨rfl, rfl, rfl⟩
      · exact .kept hd
      · exact .merged hbefore
    | delete path' id' =>
      cases hstep
      exact .kept (World.getElem?_eraseDoc hd)
    | commit writes =>
      cases hstep
      rcases World.getElem?_foldl_write hd with hd | ⟨payload, hmem, rfl⟩
      · exact .kept hd
      · exact .set hmem
    | _ => exact .kept (Call.WritesNothing.firestore w _ _ w' (by trivial) hstep ▸ hd)

/-- One call keeps the property of every document. -/
theorem EveryDocument.step {D : CollectionPath → String → Doc → Prop} {c : Call}
    {r : Fallible Exc Ans c} (h : EveryDocument D w.firestore) (hc : c.Preserves D)
    (hstep : World.step w c r = some w') : EveryDocument D w'.firestore := by
  intro path id d hd
  generalize he : (⟨c, r⟩ : AppEvent) = e
  have hstored : StoredBy w e path id d := he ▸ World.step_storedBy hstep hd
  cases hstored with
  | kept hbefore => exact h path id d hbefore
  | added => cases he; exact hc id _
  | merged hbefore => cases he; exact hc _ (h path id _ hbefore)
  | set hmem => cases he; exact hc path id _ hmem _

end Step

/-- A message that an operation sends is one of these: its conversation, sender and receiver. -/
def AppOperation.Sends (Sent : ChatGroupId → UserId → UserId → Prop) : AppOperation → Prop
  | operation (.sendMessage groupChatId currentUserId receiverId _ _) =>
    Sent groupChatId currentUserId receiverId
  | _ => True

/-- A message is a record. -/
theorem createsRecord_messagePayload (groupChatId : ChatGroupId)
    (currentUserId receiverId message : String) (files : List File) (lists : MediaLists) :
    CreatesRecord (.chat groupChatId)
      (ChatMessageNotifier.messagePayload currentUserId receiverId message files lists) := by
  unfold ChatMessageNotifier.messagePayload
  split
  · exact .message ..
  · exact .message ..

section Calls

variable {op : AppOperation} {stored : CollectionPath → String → Doc → Prop}

/-- A transaction sets nothing but a message. -/
theorem AppOperation.Commits.of_set {writes : List Write} (h : op.Commits stored writes)
    {path : CollectionPath} {id : String} {payload : Doc} (hset : .set path id payload ∈ writes) :
    ∃ groupChatId currentUserId receiverId message files lists,
      op = .operation (.sendMessage groupChatId currentUserId receiverId message files) ∧
        path = .chat groupChatId ∧ payload =
          ChatMessageNotifier.messagePayload currentUserId receiverId message files lists := by
  cases h with
  | reactions hpath docs =>
    obtain ⟨doc, -, hdoc⟩ := List.mem_map.mp hset
    cases hdoc
  | message id lists =>
    cases List.mem_singleton.mp hset
    exact ⟨_, _, _, _, _, lists, rfl, rfl, rfl⟩

/-- The operations add, edit and set documents of their collections. -/
theorem AppOperation.MayCall.preserves_storedIn {c : Call} (h : op.MayCall stored c) :
    c.Preserves StoredIn := by
  have hcreated : ∀ {path : CollectionPath} {payload : Doc} (id : String) (t : Timestamp),
      CreatesRecord path payload → StoredIn path id (payload.resolve t) := by
    intro path payload id t hcreates
    refine ⟨hcreates.storesRecord t, ?_⟩
    rintro rfl
    cases hcreates
  have hedited : ∀ {path : CollectionPath} {id : String} {fields d : Doc},
      EditsRecord path fields → path ≠ .users → StoredIn path id d →
        StoredIn path id (d.merge fields) := fun hedits hpath hd =>
    ⟨hedits.storesRecord hd.1, fun husers => absurd husers hpath⟩
  cases c with
  | add path payload =>
    intro id t
    cases h with
    | upload => exact hcreated id t (.post ..)
    | album => exact hcreated id t (.post ..)
    | comment => exact hcreated id t (.comment ..)
    | like => exact ⟨trivial, nofun⟩
    | profile => exact ⟨trivial, fun _ => storesProfile_userInfoPayload ..⟩
  | update path id fields =>
    intro d hd
    cases h with
    | message => exact hedited (.message ..) nofun hd
    | media => exact hedited (.media ..) nofun hd
    | comment => exact hedited (.comment ..) nofun hd
    | userInfo =>
      refine ⟨trivial, fun _ => EditsProfile.storesProfile ?_ (hd.2 rfl)⟩
      exact editsProfile_updatedFields _ _ _ _
    | picture =>
      refine ⟨trivial, fun _ => EditsProfile.storesProfile ?_ (hd.2 rfl)⟩
      exact editsProfile_profileFields _ _
  | commit writes =>
    intro path id payload hmem t
    obtain ⟨groupChatId, currentUserId, receiverId, message, files, lists, rfl, rfl, rfl⟩ :=
      h.of_set hmem
    exact hcreated id t (createsRecord_messagePayload ..)
  | _ => trivial

end Calls

/-- Whatever the operations of several devices interleave, with any failures: a property that every
call of the operations keeps holds of every document throughout. -/
theorem everyDocument_of_steps {D : CollectionPath → String → Doc → Prop}
    {runs : List (Nat × AppOperation)}
    (hkeeps : ∀ run ∈ runs, ∀ stored c, run.2.MayCall stored c → c.Preserves D) {n : Network}
    (hn : EveryDocument D n.firestore) {moves : List DeviceMove} {P : AppDevices}
    (h : AppSteps runs n moves P) :
    EveryDocument D P.state.firestore := by
  induction h with
  | nil => exact hn
  | snoc hpast hstep _ ih =>
    obtain ⟨run, hrun, -, hcall⟩ := mayCall_of_step hpast hstep
    cases hstep with
    | @mk n₁ n₂ threads i c next r hthread haccept =>
      obtain ⟨w, hw, hn₂⟩ := Network.step_eq_some haccept
      have hview : EveryDocument D (n₁.view c.1).firestore := ih
      rw [hn₂]
      exact hview.step (hkeeps run (List.mem_of_getElem? hrun) _ c.2 hcall) hw

/-- Every document stays one of its collection. -/
theorem everyDocumentStored_of_steps {runs : List (Nat × AppOperation)} {n : Network}
    (hn : EveryDocumentStored n.firestore)
    {moves : List DeviceMove} {P : AppDevices}
    (h : AppSteps runs n moves P) :
    EveryDocumentStored P.state.firestore :=
  everyDocument_of_steps (fun _ _ _ _ hcall => hcall.preserves_storedIn) hn h

end TekkGram
