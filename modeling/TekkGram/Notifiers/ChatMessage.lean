import TekkGram.Notifiers.Album

/-!
# ChatMessageNotifier

A message is one document of its conversation, under the milliseconds of the sender's clock.
The document is written by `set` after the loop over the files, whatever the loop did.
-/

namespace TekkGram

open Interaction Async

namespace ChatMessageNotifier

/-- The callback for one file. -/
def sendImageFile (currentUserId : UserId) (imageFile : File) : Action MediaLists Unit := do
  let thumbnail ← imageThumbnail .sendChatMessage imageFile
  match thumbnail with
  | none => return ()
  | some thumbnailUint8List =>
    storeListedMedia currentUserId chatFolder thumbnailUint8List imageFile

/-- The payload of a message without files. -/
def textPayload (currentUserId receiverId message : String) : Doc :=
  chatPayload currentUserId receiverId message "text" .serverTimestamp none none none none none none

/-- The payload of a message with files. -/
def imagesPayload (currentUserId receiverId message : String) (lists : MediaLists) : Doc :=
  chatPayload currentUserId receiverId message "images" .serverTimestamp
    (some lists.thumbnailUrlList) (some lists.originalUrlList) (some lists.thumbnailStorageIdList)
    (some lists.originalStorageIdList) (some lists.thumbnailAspectRatioList)
    (some lists.fileNameList)

/-- The transaction that sets the message's document. -/
def setMessage {σ : Type} (groupChatId id : String) (messageChat : Doc) : Action σ Unit := do
  let _ ← await (.commit [.set (.chat groupChatId) id messageChat])

/-- The `try` block. -/
def send (groupChatId currentUserId receiverId message : String) (files : List File) :
    Action MediaLists Bool := do
  let now : DateTime ← await .now
  let id := toString now.millisecondsSinceEpoch
  if files = [] then
    setMessage groupChatId id (textPayload currentUserId receiverId message)
    return true
  else
    forEach files (sendImageFile currentUserId)
    let lists ← get
    setMessage groupChatId id (imagesPayload currentUserId receiverId message lists)
    return true

/-- `sendMessage`. -/
def sendMessage (groupChatId currentUserId receiverId message : String) (files : List File) :
    Action Unit Bool :=
  withLocals MediaLists.empty do
    await (.setLoading .sendChatMessage true)
    tryFinally
      (tryCatch (send groupChatId currentUserId receiverId message files) fun _ => pure false)
      (await (.setLoading .sendChatMessage false))

/-- What the callback can do: raise before it stores anything, or process its file. -/
theorem sendImageFile_spec (currentUserId : UserId) (imageFile : File) (l : MediaLists)
    (w : World) :
    (sendImageFile currentUserId imageFile).wp World.step
      (fun tr out l' w' => w.Grows w' ∧
        Ends (fun _ => Processed w w' currentUserId chatFolder imageFile tr l l')
          (fun _ => True) out) l w := by
  unfold sendImageFile
  refine wp_bind.mpr (wp_mono (imageThumbnail_spec .sendChatMessage imageFile l w) ?_)
  rintro tr out l' w' ⟨rfl, hraised, hfetched, ⟨e, rfl, -, rfl⟩ | ⟨rfl, hundecoded, -, rfl⟩ |
    ⟨thumbnail, rfl, hsource, hdecoded, -, rfl⟩⟩
  · exact ⟨.refl, trivial⟩
  · rw [ends_ok, wp_pure]
    exact ⟨.setLoading .refl _ _,
      .skipped (by simp [hundecoded]) (by simp [hraised]) (by simp [hfetched])⟩
  · refine wp_mono (storeListedMedia_spec chatFolder_ne_thumbnails hsource l' w') ?_
    rintro tr' out l'' w'' ⟨hgrows, hout⟩
    cases out with
    | error e => exact ⟨hgrows, trivial⟩
    | ok _ => exact ⟨hgrows, Processed.prepend hout tr ⟨hdecoded, hraised, hfetched⟩⟩

theorem sendImageFile_calls (currentUserId : UserId) (imageFile : File) :
    (sendImageFile currentUserId imageFile).Calls Call.Media := by
  refine calls_bind ((imageThumbnail_calls _ _).mono fun _ => Call.MakesThumbnail.media) ?_
  intro thumbnail
  cases thumbnail with
  | none => exact calls_pure
  | some bytes => exact (storeListedMedia_calls _ _ _ _).mono fun _ => Call.StoresFile.media

/-- The payload that a message stores for the gathered lists. -/
def messagePayload (currentUserId receiverId message : String) (files : List File)
    (lists : MediaLists) : Doc :=
  if files = [] then textPayload currentUserId receiverId message
  else imagesPayload currentUserId receiverId message lists

/-- What the `try` block can do: raise without writing a document, or set the document of the
message under the time it read. -/
theorem send_spec (groupChatId currentUserId receiverId message : String) (files : List File)
    (w : World) :
    (send groupChatId currentUserId receiverId message files).wp World.step
      (fun tr out _ w' =>
        (∃ e, out = .error e ∧ w.Grows w' ∧ ∀ path id, ¬ Returned (Writes path id) tr) ∨
        ∃ (lists : MediaLists) (now : DateTime) (t : Timestamp) (w₁ : World), out = .ok true ∧
          Gathered w w₁ currentUserId chatFolder files tr lists ∧
          (files = [] → lists = .empty) ∧
          w' = w₁.setDoc (.chat groupChatId) (toString now.millisecondsSinceEpoch)
            ((messagePayload currentUserId receiverId message files lists).resolve t) ∧
          ∀ path id, Returned (Writes path id) tr ↔
            path = .chat groupChatId ∧ id = toString now.millisecondsSinceEpoch) .empty w := by
  unfold send
  rw [wp_bind, wp_now]
  intro now
  rw [ends_ok]
  by_cases hfiles : files = []
  · subst hfiles
    simp only [ite_true, setMessage]
    rw [wp_bind, wp_bind, wp_commit]
    constructor
    · exact .inl ⟨_, rfl, .refl, by simp⟩
    · intro t
      rw [ends_ok, wp_pure, ends_ok, wp_pure]
      refine .inr ⟨.empty, now, t, w, rfl, ?_, fun _ => rfl, rfl, fun path id => ?_⟩
      · exact Gathered.nil.around [⟨.now, .ok now⟩] _ (by simp [Quiet]) (by simp [Quiet])
      · simp [eq_comm]
  · simp only [if_neg hfiles, setMessage]
    refine wp_bind.mpr (wp_mono (forEach_gathered (sendImageFile_spec currentUserId)
      (sendImageFile_calls currentUserId) files w) ?_)
    rintro tr out lists w₁ ⟨hgrows, hwrites, hout⟩
    cases out with
    | error e => exact .inl ⟨e, rfl, hgrows, by simpa using hwrites⟩
    | ok _ =>
      rw [ends_ok, wp_bind, wp_get, ends_ok, wp_bind, wp_bind, wp_commit]
      constructor
      · exact .inl ⟨_, rfl, hgrows, by simpa using hwrites⟩
      · intro t
        rw [ends_ok, wp_pure, ends_ok, wp_pure]
        refine .inr ⟨lists, now, t, w₁, rfl, ?_, fun h => absurd h hfiles, ?_, fun path id => ?_⟩
        · exact Gathered.around hout [⟨.now, .ok now⟩] _ (by simp [Quiet]) (by simp [Quiet])
        · simp only [messagePayload, if_neg hfiles]
          rfl
        · simp [hwrites, eq_comm]

/-- What `sendMessage` can do. -/
theorem sendMessage_spec (groupChatId currentUserId receiverId message : String)
    (files : List File) (s : Unit) (w : World) :
    (sendMessage groupChatId currentUserId receiverId message files).wp World.step
      (fun tr out _ w' =>
        (out = .ok false ∧ w.Grows w' ∧ ∀ path id, ¬ Returned (Writes path id) tr) ∨
        ∃ (lists : MediaLists) (now : DateTime) (t : Timestamp) (w₁ : World), out = .ok true ∧
          Gathered w w₁ currentUserId chatFolder files tr lists ∧
          (files = [] → lists = .empty) ∧
          w' = (w₁.setDoc (.chat groupChatId) (toString now.millisecondsSinceEpoch)
            ((messagePayload currentUserId receiverId message files lists).resolve t)).setLoading
              .sendChatMessage false ∧
          ∀ path id, Returned (Writes path id) tr ↔
            path = .chat groupChatId ∧ id = toString now.millisecondsSinceEpoch) s w := by
  have hstart : w.Grows (w.setLoading .sendChatMessage true) := .setLoading .refl _ _
  unfold sendMessage
  rw [wp_withLocals, wp_bind, wp_setLoading, ends_ok, wp_tryFinally_tryCatch]
  refine wp_mono (send_spec groupChatId currentUserId receiverId message files _) ?_
  rintro tr out l w' (⟨e, rfl, hgrows, hwrites⟩ |
    ⟨lists, now, t, w₁, rfl, hgathered, hempty, rfl, hwrites⟩)
  · rw [ends_error]
    exact .inl ⟨rfl, .setLoading (hstart.trans hgrows) _ _, by simpa using hwrites⟩
  · rw [ends_ok]
    refine .inr ⟨lists, now, t, w₁, rfl, ?_, hempty, rfl, by simpa using hwrites⟩
    exact (hgathered.of_grows hstart).around _ _ (by simp [Quiet]) (by simp [Quiet])

end ChatMessageNotifier

end TekkGram
