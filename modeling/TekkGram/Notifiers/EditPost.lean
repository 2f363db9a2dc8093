import TekkGram.Notifiers.Album

/-!
# EditPostNotifier

Both edits look the post up by its id first. The edit of a post's media replaces the
lists of the post by those gathered from the new files.
-/

namespace TekkGram

open Interaction Async

namespace EditPostNotifier

/-- The `try` block of `editPost`. -/
def editMessage (postId : PostId) (message : String) : Action Unit Bool := do
  await (.setLoading .editPost true)
  let docs : List DocSnapshot ← await (.get (.byId .posts postId))
  let post := docs.filter fun data => data.id = postId
  match post with
  | [] => return true
  | data :: _ => do
    await (.update .posts data.id [("message", .string message)])
    return true

/-- `editPost`. -/
def editPost (postId : PostId) (message : String) : Action Unit Bool :=
  tryFinally (tryCatch (editMessage postId message) fun _ => pure false)
    (await (.setLoading .editPost false))

/-- The rest of an iteration: the listed file name is the stored one, and a failure to store
ends the loop. -/
def storeNamedMedia (userId folder : String) (thumbnailUint8List : Uint8List) (file : File) :
    Action MediaLists Unit := do
  let thumbnailAspectRatio : ℚ ← await (.getAspectRatio thumbnailUint8List)
  modify fun lists => { lists with
    thumbnailAspectRatioList := lists.thumbnailAspectRatioList ++ [thumbnailAspectRatio] }
  let fileName : String ← await .uuidV4
  modify fun lists => { lists with fileNameList := lists.fileNameList ++ [fileName] }
  storeMedia userId folder fileName thumbnailUint8List file

/-- The callback for one file; the thumbnail stays unassigned for a profile picture. -/
def editImageFile (userId : UserId) (fileType : FileType) (file : File) :
    Action MediaLists Unit :=
  match fileType with
  | .image => do
    let thumbnail ← imageThumbnail .editPost file
    match thumbnail with
    | none => return ()
    | some thumbnailUint8List =>
      storeNamedMedia userId fileType.collectionName thumbnailUint8List file
  | .video => do
    let thumb ← videoThumbnail .editPost file
    storeNamedMedia userId fileType.collectionName thumb file
  | .userImage => throw .lateInitialization

/-- The fields that the edit writes to the post. -/
def editedFields (userId : UserId) (message : String) (fileType : FileType)
    (lists : MediaLists) : Doc :=
  [(PostKey.userId, .string userId),
   (PostKey.message, .string message),
   (PostKey.thumbnailUrl, .strings lists.thumbnailUrlList),
   (PostKey.fileUrl, .strings lists.originalUrlList),
   (PostKey.fileType, .string fileType.name),
   (PostKey.fileName, .strings lists.fileNameList),
   (PostKey.aspectRatio, .doubles lists.thumbnailAspectRatioList),
   (PostKey.thumbnailStorageId, .strings lists.thumbnailStorageIdList),
   (PostKey.originalFileStorageId, .strings lists.originalStorageIdList)]

/-- The `try` block of `editImagePost`. -/
def editMedia (userId : UserId) (postId : PostId) (message : String) (files : List File)
    (fileType : FileType) : Action MediaLists Bool := do
  let docs : List DocSnapshot ← await (.get (.byId .posts postId))
  let post := docs.filter fun data => data.id = postId
  match post with
  | [] => return false
  | _ :: _ => do
    forEach files (editImageFile userId fileType)
    let lists ← get
    let data ← first docs
    await (.update .posts data.id (editedFields userId message fileType lists))
    return true

/-- `editImagePost`. -/
def editImagePost (userId : UserId) (postId : PostId) (message : String) (files : List File)
    (fileType : FileType) : Action Unit Bool :=
  withLocals MediaLists.empty do
    await (.setLoading .editPost true)
    tryFinally
      (tryCatch (editMedia userId postId message files fileType) fun _ => pure false)
      (await (.setLoading .editPost false))

/-- What storing an edited file can do: raise, or process the file. -/
theorem storeNamedMedia_spec {userId folder : String} (hfolder : folder ≠ thumbnails)
    {thumbnail : Uint8List} {file : File} (hsource : thumbnail.source = file) (l : MediaLists)
    (w : World) :
    (storeNamedMedia userId folder thumbnail file).wp World.step
      (fun tr out l' w' => w.Grows w' ∧
        Ends (fun _ => Processed w w' userId folder file tr l l') (fun _ => True) out) l w := by
  unfold storeNamedMedia
  rw [wp_bind, wp_getAspectRatio]
  refine ⟨⟨.refl, trivial⟩, ?_⟩
  rw [ends_ok, wp_bind, wp_modify, ends_ok, wp_bind, wp_uuidV4]
  intro fileName hfresh
  rw [ends_ok, wp_bind, wp_modify, ends_ok]
  have hg : w.Grows (w.draw fileName) := World.Grows.refl.draw _
  refine wp_mono (storeMedia_processed hfolder hsource fileName l hg hfresh (by simp)) ?_
  rintro tr out l' w' ⟨hgrows, hprocessed, hout⟩
  have hall := hprocessed.prepend [⟨.getAspectRatio thumbnail, .ok thumbnail.aspectRatio⟩,
    ⟨.uuidV4, .ok fileName⟩] (by simp [Quiet])
  rcases hout with ⟨rfl, -⟩ | ⟨e, rfl⟩
  · exact ⟨hgrows, hall⟩
  · exact ⟨hgrows, trivial⟩

/-- What the callback can do: raise, or process its file. -/
theorem editImageFile_spec (userId : UserId) (fileType : FileType) (file : File)
    (l : MediaLists) (w : World) :
    (editImageFile userId fileType file).wp World.step
      (fun tr out l' w' => w.Grows w' ∧
        Ends (fun _ => Processed w w' userId fileType.collectionName file tr l l')
          (fun _ => True) out) l w := by
  have hstore : ∀ {thumbnail : Uint8List}, thumbnail.source = file → ∀ {pre : List AppEvent},
      Quiet pre → (storeNamedMedia userId fileType.collectionName thumbnail file).wp World.step
        (fun tr out l' w' => w.Grows w' ∧
          Ends (fun _ => Processed w w' userId fileType.collectionName file (pre ++ tr) l l')
            (fun _ => True) out) l w := by
    intro thumbnail hsource pre hquiet
    refine wp_mono (storeNamedMedia_spec fileType.collectionName_ne_thumbnails hsource l w) ?_
    rintro tr out l' w' ⟨hgrows, hout⟩
    cases out with
    | error e => exact ⟨hgrows, trivial⟩
    | ok _ => exact ⟨hgrows, Processed.prepend hout pre hquiet⟩
  unfold editImageFile
  cases fileType with
  | userImage => simp [World.Grows.refl]
  | image =>
    refine wp_bind.mpr (wp_mono (imageThumbnail_spec .editPost file l w) ?_)
    rintro tr out l' w' ⟨rfl, hraised, hfetched, ⟨e, rfl, -, rfl⟩ | ⟨rfl, hundecoded, -, rfl⟩ |
      ⟨thumbnail, rfl, hsource, hdecoded, -, rfl⟩⟩
    · exact ⟨.refl, trivial⟩
    · rw [ends_ok, wp_pure]
      exact ⟨.setLoading .refl _ _,
        .skipped (by simp [hundecoded]) (by simp [hraised]) (by simp [hfetched])⟩
    · exact hstore hsource ⟨hdecoded, hraised, hfetched⟩
  | video =>
    refine wp_bind.mpr (wp_mono (videoThumbnail_spec .editPost file l w) ?_)
    rintro tr out l' w' ⟨rfl, hraised, hfetched, hdecoded, ⟨e, rfl, -, rfl⟩ | ⟨e, rfl, -, rfl⟩ |
      ⟨thumbnail, rfl, hsource, -, rfl⟩⟩
    · exact ⟨.refl, trivial⟩
    · exact ⟨.setLoading .refl _ _, trivial⟩
    · exact hstore hsource ⟨hdecoded, hraised, hfetched⟩

theorem storeNamedMedia_calls (userId folder : String) (thumbnail : Uint8List) (file : File) :
    (storeNamedMedia userId folder thumbnail file).Calls Call.StoresFile := by
  unfold storeNamedMedia
  refine calls_bind (calls_call (by simp)) fun _ => calls_bind calls_modify fun _ => ?_
  refine calls_bind (calls_call (by simp)) fun _ => calls_bind calls_modify fun _ => ?_
  exact storeMedia_calls _ _ _ _ _

theorem editImageFile_calls (userId : UserId) (fileType : FileType) (file : File) :
    (editImageFile userId fileType file).Calls Call.Media := by
  have hstore : ∀ folder thumbnail,
      (storeNamedMedia userId folder thumbnail file).Calls Call.Media := fun _ _ =>
    (storeNamedMedia_calls _ _ _ _).mono fun _ => Call.StoresFile.media
  unfold editImageFile
  cases fileType with
  | userImage => exact calls_throw
  | video =>
    exact calls_bind ((videoThumbnail_calls _ _).mono fun _ => Call.MakesThumbnail.media)
      fun thumb => hstore _ _
  | image =>
    refine calls_bind ((imageThumbnail_calls _ _).mono fun _ => Call.MakesThumbnail.media) ?_
    intro thumbnail
    cases thumbnail with
    | none => exact calls_pure
    | some bytes => exact hstore _ _

/-- The documents found for a post id are the post with that id, if it is stored. -/
theorem filter_eval_byId (w : World) (postId : PostId) :
    ((Query.byId .posts postId).eval (w.firestore .posts)).filter (fun data => data.id = postId) =
      ((w.firestore .posts)[postId]?.map fun d => (⟨postId, d⟩ : DocSnapshot)).toList := by
  rw [Query.eval_byId]
  cases (w.firestore .posts)[postId]? with
  | none => rfl
  | some d => simp

/-- What the edit of a message can do: leave the documents as they are, or merge the message
into the post. -/
theorem editPost_spec (postId : PostId) (message : String) (s : Unit) (w : World) :
    (editPost postId message).wp World.step (fun _ _ _ w' => w.Grows w' ∨
      ∃ d w₁, (w.firestore .posts)[postId]? = some d ∧ w.Grows w₁ ∧
        w' = (w₁.setDoc .posts postId (d.merge [("message", .string message)])).setLoading
          .editPost false) s w := by
  have hstart : w.Grows (w.setLoading .editPost true) := .setLoading .refl _ _
  have hend := hstart.setLoading .editPost false
  unfold editPost editMessage
  rw [wp_tryFinally_tryCatch, wp_bind, wp_setLoading, ends_ok, wp_bind, wp_get_query]
  constructor
  · rw [ends_error, ends_error]
    exact .inl hend
  simp only [ends_ok]
  rw [show (Query.byId .posts postId).collection = .posts from rfl, World.setLoading_firestore,
    filter_eval_byId]
  cases hd : (w.firestore .posts)[postId]? with
  | none =>
    simp only [Option.map_none, Option.toList_none]
    rw [wp_pure, ends_ok]
    exact .inl hend
  | some d =>
    simp only [Option.map_some, Option.toList_some]
    rw [wp_bind, wp_update]
    refine ⟨?_, ?_, ?_⟩
    · rw [ends_error, ends_error]
      exact .inl hend
    · intro _
      rw [ends_error, ends_error]
      exact .inl hend
    · intro d' hd'
      obtain rfl : d = d' := Option.some.inj (hd.symm.trans hd')
      rw [ends_ok, wp_pure, ends_ok]
      exact .inr ⟨d, _, rfl, hstart, rfl⟩

/-- An edited post lists the gathered media. -/
theorem merge_editedFields_media (d : Doc) (userId : UserId) (message : String)
    (fileType : FileType) (lists : MediaLists) :
    (d.merge (editedFields userId message fileType lists)).media =
      lists.media userId fileType.collectionName := by
  apply Doc.media_of_fields <;>
    simp +decide only [editedFields, Doc.field_merge_cons, Doc.field_merge_nil, Doc.field_set,
      ite_true, ite_false]

/-- The `try` block of the media edit: the query for the post, then the loop, then one update of
the post with the lists gathered. -/
theorem wp_editMedia {userId : UserId} {postId : PostId} {message : String} {files : List File}
    {fileType : FileType} {l : MediaLists} {w : World}
    {Q : List AppEvent → Except Exc Bool → MediaLists → World → Prop} :
    (editMedia userId postId message files fileType).wp World.step Q l w ↔
      Q [⟨.get (.byId .posts postId), .error .unavailable⟩] (.error .unavailable) l w ∧
      ((w.firestore .posts)[postId]? = none →
        Q [⟨.get (.byId .posts postId), .ok []⟩] (.ok false) l w) ∧
      ∀ d, (w.firestore .posts)[postId]? = some d →
        (forEach files (editImageFile userId fileType)).wp World.step (fun tr out lists w₁ =>
          Ends (fun _ => (await (.update .posts postId (editedFields userId message fileType lists))
              >>= fun _ => pure true : Action MediaLists Bool).wp World.step (fun tr' =>
                Q (⟨.get (.byId .posts postId), .ok [⟨postId, d⟩]⟩ :: (tr ++ tr'))) lists w₁)
            (fun e => Q (⟨.get (.byId .posts postId), .ok [⟨postId, d⟩]⟩ :: tr) (.error e)
              lists w₁) out) l w := by
  have hfirst : ∀ s : DocSnapshot, (first [s] : Action MediaLists DocSnapshot) = pure s :=
    fun _ => rfl
  unfold editMedia
  rw [wp_bind, wp_get_query]
  refine and_congr_right fun _ => ?_
  simp only [ends_ok]
  rw [show (Query.byId .posts postId).collection = .posts from rfl, filter_eval_byId,
    Query.eval_byId]
  cases hd : (w.firestore .posts)[postId]? with
  | none => simp
  | some d =>
    simp only [Option.map_some, Option.toList_some, reduceCtorEq, false_imp_iff, true_and,
      Option.some.injEq, forall_eq']
    rw [wp_bind]
    simp only [wp_bind (m := get), wp_get, ends_ok, hfirst, wp_bind (m := pure _), wp_pure,
      List.nil_append, List.singleton_append]

/-- What the `try` block of the media edit can do: return `false` or raise without writing a
document, or replace the lists of the stored post by those gathered. -/
theorem editMedia_spec (userId : UserId) (postId : PostId) (message : String)
    (files : List File) (fileType : FileType) (w : World) :
    (editMedia userId postId message files fileType).wp World.step (fun tr out _ w' =>
      ((out = .ok false ∨ ∃ e, out = .error e) ∧ w.Grows w' ∧
        ∀ path id, ¬ Returned (Writes path id) tr) ∨
      ∃ d lists w₁, out = .ok true ∧ (w.firestore .posts)[postId]? = some d ∧
        Gathered w w₁ userId fileType.collectionName files tr lists ∧
        w' = w₁.setDoc .posts postId (d.merge (editedFields userId message fileType lists)) ∧
        ∀ path id, Returned (Writes path id) tr ↔ path = .posts ∧ id = postId) .empty w := by
  rw [wp_editMedia]
  refine ⟨.inl ⟨.inr ⟨_, rfl⟩, .refl, by simp⟩, fun _ => .inl ⟨.inl rfl, .refl, by simp⟩,
    fun d hd => ?_⟩
  refine wp_mono (forEach_gathered (editImageFile_spec userId fileType)
    (editImageFile_calls userId fileType) files w) ?_
  rintro tr out lists w₁ ⟨hgrows, hwrites, hout⟩
  cases out with
  | error e => exact .inl ⟨.inr ⟨e, rfl⟩, hgrows, by simpa using hwrites⟩
  | ok _ =>
    rw [ends_ok, wp_bind, wp_update]
    refine ⟨?_, fun _ => ?_, fun d' hd' => ?_⟩
    · exact .inl ⟨.inr ⟨_, rfl⟩, hgrows, by simpa using hwrites⟩
    · exact .inl ⟨.inr ⟨_, rfl⟩, hgrows, by simpa using hwrites⟩
    · obtain rfl : d = d' := by
        rw [hgrows.firestore] at hd'
        exact Option.some.inj (hd.symm.trans hd')
      rw [ends_ok, wp_pure]
      refine .inr ⟨d, lists, w₁, rfl, hd, ?_, rfl, ?_⟩
      · exact Gathered.around hout [_] _ (by simp [Quiet]) (by simp [Quiet])
      · intro path id
        simp [hwrites, eq_comm]

/-- What the media edit can do. -/
theorem editImagePost_spec (userId : UserId) (postId : PostId) (message : String)
    (files : List File) (fileType : FileType) (s : Unit) (w : World) :
    (editImagePost userId postId message files fileType).wp World.step (fun tr out _ w' =>
      (out = .ok false ∧ w.Grows w' ∧ ∀ path id, ¬ Returned (Writes path id) tr) ∨
      ∃ d lists w₁, out = .ok true ∧ (w.firestore .posts)[postId]? = some d ∧
        Gathered w w₁ userId fileType.collectionName files tr lists ∧
        w' = (w₁.setDoc .posts postId
          (d.merge (editedFields userId message fileType lists))).setLoading .editPost false ∧
        ∀ path id, Returned (Writes path id) tr ↔ path = .posts ∧ id = postId) s w := by
  have hstart : w.Grows (w.setLoading .editPost true) := .setLoading .refl _ _
  unfold editImagePost
  rw [wp_withLocals, wp_bind, wp_setLoading, ends_ok, wp_tryFinally_tryCatch]
  refine wp_mono (editMedia_spec userId postId message files fileType _) ?_
  rintro tr out l w' (⟨rfl | ⟨e, rfl⟩, hgrows, hwrites⟩ |
    ⟨d, lists, w₁, rfl, hd, hgathered, rfl, hwrites⟩)
  · rw [ends_ok]
    exact .inl ⟨rfl, .setLoading (hstart.trans hgrows) _ _, by simpa using hwrites⟩
  · rw [ends_error]
    exact .inl ⟨rfl, .setLoading (hstart.trans hgrows) _ _, by simpa using hwrites⟩
  · rw [ends_ok]
    refine .inr ⟨d, lists, w₁, rfl, hd, ?_, rfl, by simpa using hwrites⟩
    exact (hgathered.of_grows hstart).around _ _ (by simp [Quiet]) (by simp [Quiet])

/-- The callback lists what it stores. -/
theorem editImageFile_puts (userId : UserId) (fileType : FileType) (file : File)
    (l : MediaLists) (w : World) :
    (editImageFile userId fileType file).wp World.step
      (fun tr _ l' _ => ListsPuts userId fileType.collectionName tr l l') l w := by
  have hstore : ∀ (thumbnail : Uint8List) (w : World),
      (storeNamedMedia userId fileType.collectionName thumbnail file).wp World.step
        (fun tr _ l' _ => ListsPuts userId fileType.collectionName tr l l') l w := by
    intro thumbnail w
    unfold storeNamedMedia
    rw [wp_bind, wp_getAspectRatio]
    refine ⟨fun ref => by simp, ?_⟩
    rw [ends_ok, wp_bind, wp_modify, ends_ok, wp_bind, wp_uuidV4]
    intro fileName _
    rw [ends_ok, wp_bind, wp_modify, ends_ok]
    refine wp_mono (storeMedia_puts userId _ fileName thumbnail file _ _) ?_
    intro tr out l' w' hputs ref
    have hstored : ListsPuts userId fileType.collectionName tr l l' := hputs
    simpa using hstored ref
  unfold editImageFile
  cases fileType with
  | userImage => exact wp_throw.mpr fun ref => by simp
  | image =>
    refine wp_bind.mpr (wp_mono (imageThumbnail_puts .editPost file l w) ?_)
    rintro tr out l' w' ⟨rfl, hputs⟩
    rcases out with e | thumbnail | thumbnail
    · exact fun ref => by simp [hputs]
    · rw [ends_ok, wp_pure]
      exact fun ref => by simp [hputs]
    · refine wp_mono (hstore thumbnail w') ?_
      intro tr' out l'' w'' hstored ref
      rw [hstored ref]
      simp [hputs]
  | video =>
    refine wp_bind.mpr (wp_mono (videoThumbnail_puts .editPost file l w) ?_)
    rintro tr out l' w' ⟨rfl, hputs⟩
    cases out with
    | error e => exact fun ref => by simp [hputs]
    | ok thumb =>
      refine wp_mono (hstore thumb w') ?_
      intro tr' out l'' w'' hstored ref
      rw [hstored ref]
      simp [hputs]

/-- The post that the `try` block of a media edit writes lists exactly what the loop stored. -/
theorem editMedia_puts (userId : UserId) (postId : PostId) (message : String)
    (files : List File) (fileType : FileType) (w : World) :
    (editMedia userId postId message files fileType).wp World.step
      (fun tr _ _ w' => WritesWhatItPuts tr w') .empty w := by
  have hloop := forEach_puts (editImageFile_puts userId fileType) files
  have hcalls : (forEach files (editImageFile userId fileType)).Calls Call.Media :=
    calls_forEach fun file _ => editImageFile_calls userId fileType file
  rw [wp_editMedia]
  refine ⟨.of_none (by simp), fun _ => .of_none (by simp), fun d _ => ?_⟩
  refine wp_mono (wp_and (hloop _) (wp_calls hcalls _ _)) ?_
  rintro tr out lists w₁ ⟨hputs, hmedia⟩
  have hnone : ∀ id, ¬ Returned (Writes .posts id) tr := fun id =>
    not_returned_of_calls hmedia fun c a hc => hc.not_writes .posts id a
  cases out with
  | error e =>
    rw [ends_error]
    exact .of_none (by simpa using hnone)
  | ok _ =>
    rw [ends_ok, wp_bind, wp_update]
    refine ⟨.of_none (by simpa using hnone), fun _ => .of_none (by simpa using hnone),
      fun d' _ => ?_⟩
    rw [ends_ok, wp_pure]
    refine .of_lists (by simp [hnone, eq_comm]) (merge_editedFields_media ..) fun ref => ?_
    rw [hputs ref]
    simp

/-- The post that a media edit writes lists exactly what the edit stored. -/
theorem editImagePost_puts (userId : UserId) (postId : PostId) (message : String)
    (files : List File) (fileType : FileType) (s : Unit) (w : World) :
    (editImagePost userId postId message files fileType).wp World.step
      (fun tr _ _ w' => WritesWhatItPuts tr w') s w := by
  unfold editImagePost
  rw [wp_withLocals, wp_bind, wp_setLoading, ends_ok, wp_tryFinally_tryCatch]
  refine wp_mono (editMedia_puts userId postId message files fileType _) ?_
  intro tr out l w' hwrites
  have hend := (hwrites.setLoading .editPost false).prepend
    [⟨.setLoading .editPost true, .ok ()⟩] (by simp) (by simp)
  cases out with
  | ok b => exact hend
  | error e => exact hend

end EditPostNotifier

end TekkGram
