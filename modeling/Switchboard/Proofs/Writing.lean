import Switchboard.Proofs.Desk

/-!
# Writing

A writer preserves the order of the reader's replies and of the hub's frames, and closes last
(`well_written`). `Flow` says where the frames that it has begun to write came from, and `Progress`
how they compare with those that have been taken, given what the writer is about. A deed keeps both,
so they hold of every shift.
-/

namespace Switchboard

open Wire

/-! ## Merges -/

/-- `Merge a b c`: `c` is made of all of `a` and all of `b`, each in its order. -/
inductive Merge {α : Type} : List α → List α → List α → Prop
  | nil : Merge [] [] []
  | left {x : α} {a b c : List α} : Merge a b c → Merge (x :: a) b (x :: c)
  | right {x : α} {a b c : List α} : Merge a b c → Merge a (x :: b) (x :: c)

/-! ## Where the frames come from -/

/-- The envelopes that have been taken up from one side. -/
def takenUp (source : Source) (tried : List (Source × Outgoing)) : List Envelope :=
  tried.filterMap fun a => if a.1 = source then a.2.envelope? else none

/-- What has come in is what has been taken up and what waits; the writer's own frames carry
nothing. -/
structure Flow (replies frames : List Envelope) (tried : List (Source × Outgoing)) (o : Outlet) :
    Prop where
  replies : replies = takenUp .reader tried ++ o.replies
  frames : frames = takenUp .hub tried ++ o.queue.frames
  genuine : ∀ a ∈ tried, a.1 = .writer → a.2.envelope? = none

theorem takenUp_snoc (source : Source) (tried : List (Source × Outgoing)) (a : Source × Outgoing) :
    takenUp source (tried ++ [a]) =
      takenUp source tried ++ (if a.1 = source then a.2.envelope? else none).toList :=
  filterMap_snoc _ _ _

theorem takenUp_mono {source : Source} {tried tried' : List (Source × Outgoing)}
    (h : tried <+: tried') : takenUp source tried <+: takenUp source tried' :=
  h.filterMap _

/-- What is tried is a merge of what has been taken up from the two sides. -/
theorem merge_takenUp {tried : List (Source × Outgoing)}
    (h : ∀ a ∈ tried, a.1 = .writer → a.2.envelope? = none) :
    Merge (takenUp .reader tried) (takenUp .hub tried) (envelopes (tried.map Prod.snd)) := by
  induction tried with
  | nil => exact .nil
  | cons a tried ih =>
    have ih := ih fun b hb => h b (List.mem_cons_of_mem _ hb)
    obtain ⟨source, frame⟩ := a
    unfold takenUp envelopes at ih ⊢
    cases he : frame.envelope? with
    | none => simpa [he] using ih
    | some e =>
      cases source with
      | reader => simpa [he] using ih.left
      | hub => simpa [he] using ih.right
      | writer =>
        have hnone := h _ List.mem_cons_self rfl
        rw [he] at hnone
        cases hnone

namespace Flow

variable {replies frames : List Envelope} {tried : List (Source × Outgoing)} {o o' : Outlet}
  {missed : List Inlet} {t t' : WriterTask}

/-- Nothing has been taken up. -/
theorem keep (h : Flow replies frames tried o) (hr : o'.replies = o.replies)
    (hq : o'.queue.frames = o.queue.frames) : Flow replies frames tried o' :=
  ⟨by rw [h.replies, hr], by rw [h.frames, hq], h.genuine⟩

/-- One more frame has been taken up. -/
theorem snoc (h : Flow replies frames tried o) {a : Source × Outgoing}
    (hr : o.replies = (if a.1 = .reader then a.2.envelope? else none).toList ++ o'.replies)
    (hq : o.queue.frames =
      (if a.1 = .hub then a.2.envelope? else none).toList ++ o'.queue.frames)
    (hw : a.1 = .writer → a.2.envelope? = none) : Flow replies frames (tried ++ [a]) o' where
  replies := by rw [takenUp_snoc, List.append_assoc, ← hr, h.replies]
  frames := by rw [takenUp_snoc, List.append_assoc, ← hq, h.frames]
  genuine b hb := by
    rcases List.mem_append.mp hb with hb | hb
    · exact h.genuine b hb
    · rw [List.mem_singleton.mp hb]
      exact hw

/-- A deed takes up what it begins to write, and nothing else. -/
theorem deed (h : Flow replies frames tried o) (hd : Deed o missed t t' o') :
    Flow replies frames (tried ++ (t'.held?.map fun frame => (o.source o', frame)).toList) o' := by
  have hown : o.source o = .writer := by simp [Outlet.source]
  cases hd with
  | rest _ ht' =>
    rw [WriterTask.held?_of_isIdle ht', Option.map_none, Option.toList_none, List.append_nil]
    exact h
  | @reply _ e rest _ _ hr =>
    have hsource : o.source { o with replies := rest } = .reader := by simp [Outlet.source, hr]
    refine h.snoc ?_ ?_ ?_ <;> simp [hsource, hr, Outgoing.envelope?]
  | @frame _ e queue _ _ _ hp =>
    obtain ⟨hf, -⟩ := Queue.frames_of_pop?_eq_some hp
    have hsource : o.source { o with queue } = .hub := by simp [Outlet.source, hf]
    refine h.snoc ?_ ?_ ?_ <;> simp [hsource, hf, Outgoing.envelope?]
  | ping | leave => exact h.snoc (by simp [hown]) (by simp [hown]) fun _ => rfl
  | write _ ht' =>
    rw [WriterTask.held?_of_isIdle ht', Option.map_none, Option.toList_none, List.append_nil]
    exact h.keep rfl rfl
  | fail | part | vanish | close =>
    rw [WriterTask.held?, Option.map_none, Option.toList_none, List.append_nil]
    exact h.keep rfl rfl

end Flow

/-! ## How far the writing has got -/

/-- There is no goodbye among the frames. -/
def IsOpen (frames : List Outgoing) : Prop := ∀ frame ∈ frames, frame.isClose = false

theorem IsOpen.snoc {frames : List Outgoing} (h : IsOpen frames) {frame : Outgoing}
    (hf : frame.isClose = false) : IsOpen (frames ++ [frame]) := by
  intro f hm
  rcases List.mem_append.mp hm with hm | hm
  · exact h f hm
  · rw [List.mem_singleton.mp hm]
    exact hf

/--
`Progress tried taken o t`: the frames of `tried` have been begun and those of `taken` have been
taken, and now the writer is at `t`. Only the last one that was begun may not have been taken, and
only that may be a goodbye.
-/
inductive Progress (tried taken : List Outgoing) (o : Outlet) : WriterTask → Prop
  | idle {t : WriterTask} :
      t.isIdle = true → IsOpen taken → tried = taken → Progress tried taken o t
  | writing {frame : Outgoing} {deadline : Instant} :
      IsOpen taken → frame.isClose = false → tried = taken ++ [frame] →
      Progress tried taken o (.writing frame deadline)
  | leaving {why : Termination} {deadline : Instant} :
      o.Justifies why → IsOpen taken → tried = taken ++ [.close none] →
      Progress tried taken o (.leaving why deadline)
  | failed {t : WriterTask} {frame : Outgoing} :
      t.ending? = some .writeFailed → IsOpen taken → frame.isClose = false →
      tried = taken ++ [frame] → Progress tried taken o t
  | left {t : WriterTask} {why : Termination} {before : List Outgoing} :
      t.ending? = some why → o.Justifies why → IsOpen before → tried = before ++ [.close none] →
      taken = before ∨ taken = tried → Progress tried taken o t
  | aborted {t : WriterTask} : Progress tried taken o t → Progress tried taken o .aborted

namespace Progress

variable {tried taken : List Outgoing} {o o' : Outlet} {missed : List Inlet} {t t' : WriterTask}

theorem of_isIdle (h : Progress tried taken o t) (ht : t.isIdle = true) :
    tried = taken ∧ IsOpen taken := by
  cases h with
  | idle _ hopen heq => exact ⟨heq, hopen⟩
  | writing | leaving | aborted => cases ht
  | failed he | left he =>
    rw [WriterTask.ending?_of_isIdle ht] at he
    cases he

/-- The frames that were taken are the first of those that were begun. -/
theorem isPrefix (h : Progress tried taken o t) : taken <+: tried := by
  induction h with
  | idle _ _ heq => exact heq ▸ List.prefix_rfl
  | writing _ _ heq | leaving _ _ heq | failed _ _ _ heq => exact heq ▸ List.prefix_append _ _
  | left _ _ _ heq htaken =>
    rcases htaken with rfl | rfl
    · exact heq ▸ List.prefix_append _ _
    · exact List.prefix_rfl
  | aborted _ ih => exact ih

/-- Only the last frame that was begun may be a goodbye. -/
theorem isOpen_dropLast (h : Progress tried taken o t) : IsOpen tried.dropLast := by
  induction h with
  | idle _ hopen heq => exact fun f hf => hopen f (heq ▸ List.dropLast_subset _ hf)
  | writing hopen _ heq | leaving _ hopen heq | failed _ hopen _ heq =>
    rw [heq, List.dropLast_concat]
    exact hopen
  | left _ _ hopen heq _ =>
    rw [heq, List.dropLast_concat]
    exact hopen
  | aborted _ ih => exact ih

/-- Nothing about the writing changes while the reasons that the writer has had stay good. -/
theorem keep (h : Progress tried taken o t) (ho : ∀ why, o.Justifies why → o'.Justifies why) :
    Progress tried taken o' t := by
  induction h with
  | idle ht hopen heq => exact .idle ht hopen heq
  | writing hopen hf heq => exact .writing hopen hf heq
  | leaving hj hopen heq => exact .leaving (ho _ hj) hopen heq
  | failed he hopen hf heq => exact .failed he hopen hf heq
  | left he hj hopen heq htaken => exact .left he (ho _ hj) hopen heq htaken
  | aborted _ ih => exact .aborted ih

/-- A writer that has ended either failed to write a frame or has written a goodbye. -/
theorem of_finished {why : Termination} (h : Progress tried taken o (.finished why)) :
    (why = .writeFailed ∧ ∃ frame, frame.isClose = false ∧ tried = taken ++ [frame]) ∨
      (o.Justifies why ∧ ∃ before, tried = before ++ [.close none] ∧
        (taken = before ∨ taken = tried)) := by
  cases h with
  | idle ht => cases ht
  | failed he _ hf heq => exact Or.inl ⟨Option.some.inj he, _, hf, heq⟩
  | left he hj _ heq htaken =>
    obtain rfl := Option.some.inj he
    exact Or.inr ⟨hj, _, heq, htaken⟩

theorem justifies_socket (socket : Socket) (why : Termination) (h : o.Justifies why) :
    ({ o with socket } : Outlet).Justifies why :=
  ⟨h.unfailed, h.client, h.queue⟩

/-- What a deed makes of the frames that have been begun and of those that have been taken. -/
theorem deed (h : Progress tried taken o t) (hd : Deed o missed t t' o') :
    Progress (tried ++ t'.held?.toList) (taken ++ (t.held?.filter o.socket.takes).toList)
      o' t' := by
  cases hd with
  | rest ht ht' =>
    obtain ⟨rfl, hopen⟩ := h.of_isIdle ht
    rw [WriterTask.held?_of_isIdle ht, WriterTask.held?_of_isIdle ht']
    simpa using Progress.idle ht' hopen rfl
  | reply deadline ht | frame deadline ht | ping deadline ht =>
    obtain ⟨rfl, hopen⟩ := h.of_isIdle ht
    rw [WriterTask.held?_of_isIdle ht]
    simpa using Progress.writing hopen rfl rfl
  | leave deadline ht hj =>
    obtain ⟨rfl, hopen⟩ := h.of_isIdle ht
    rw [WriterTask.held?_of_isIdle ht]
    simpa using Progress.leaving hj hopen rfl
  | @write frame deadline t' socket ho ht' =>
    have htakes := Socket.takes_of_offer ho
    rw [WriterTask.held?_of_isIdle ht']
    cases h with
    | idle ht | failed he | left he => first | cases ht | cases he
    | writing hopen hf heq =>
      simp only [WriterTask.held?, Option.filter_some, htakes, if_true, Option.toList_none,
        Option.toList_some, List.append_nil]
      exact .idle ht' (hopen.snoc hf) heq
  | fail deadline' htakes =>
    cases h with
    | idle ht | failed he | left he => first | cases ht | cases he
    | writing hopen hf heq =>
      simp only [WriterTask.held?, Option.filter_some, htakes, Option.toList_none, List.append_nil,
        Bool.false_eq_true, if_false]
      exact .failed rfl hopen hf heq
  | part deadline' ho =>
    have htakes := Socket.takes_of_offer ho
    cases h with
    | idle ht | failed he | left he => first | cases ht | cases he
    | leaving hj hopen heq =>
      exact .left rfl (justifies_socket _ _ hj) hopen (by simpa using heq)
        (Or.inr (by simp [htakes, heq]))
  | vanish deadline' htakes =>
    cases h with
    | idle ht | failed he | left he => first | cases ht | cases he
    | leaving hj hopen heq =>
      exact .left rfl hj hopen (by simpa using heq) (Or.inl (by simp [htakes]))
  | close socket =>
    simp only [WriterTask.held?, Option.filter_none, Option.toList_none, List.append_nil]
    cases h with
    | idle ht => cases ht
    | failed he hopen hf heq => exact .failed he hopen hf heq
    | left he hj hopen heq htaken =>
      exact .left he (justifies_socket socket _ hj) hopen heq htaken

end Progress

/-! ## Shifts -/

theorem replied_snoc (log : List Page) (p : Page) :
    replied (log ++ [p]) = replied log ++ p.reply?.toList :=
  filterMap_snoc _ _ _

theorem queued_snoc (log : List Page) (p : Page) :
    queued (log ++ [p]) = queued log ++ p.frame?.toList :=
  filterMap_snoc _ _ _

theorem attempted_snoc (s : Settings) (log : List Page) (p : Page) :
    attempted s (log ++ [p]) = attempted s log ++ (p.attempt? s).toList :=
  filterMap_snoc _ _ _

theorem accepted_snoc (log : List Page) (p : Page) :
    accepted (log ++ [p]) = accepted log ++ p.accept?.toList :=
  filterMap_snoc _ _ _

/-- The frames that the writer has begun to write, wherever they came from. -/
def begun (s : Settings) (log : List Page) : List Outgoing := (attempted s log).map Prod.snd

/-- What holds of a desk after the events of a log. -/
structure Desk.Kept (s : Settings) (log : List Page) (d : Desk) : Prop where
  flow : Flow (replied log) (queued log) (attempted s log) d.outlet
  progress : Progress (begun s log) (accepted log) d.outlet d.writer.task

namespace Desk

variable {s : Settings} {log : List Page} {d d' : Desk}

theorem kept_opening (s : Settings) (capacity : Nat) (socket : Socket) (now seen : Instant) :
    (opening capacity socket now seen).Kept s [] where
  flow := ⟨rfl, rfl, fun _ h => nomatch h⟩
  progress := .idle rfl (fun _ h => nomatch h) rfl

theorem Kept.work (h : d.Kept s log) (hd : d.after? s .work = some d') :
    d'.Kept s (log ++ [⟨d, .work⟩]) := by
  have hdeed := deed_of_work hd
  have htry : (⟨d, .work⟩ : Page).attempt? s =
      d'.writer.task.held?.map fun frame => (d.outlet.source d'.outlet, frame) := by
    unfold Page.attempt?
    dsimp only
    rw [hd, Option.bind_some]
  have hbegun : begun s (log ++ [⟨d, .work⟩]) = begun s log ++ d'.writer.task.held?.toList := by
    unfold begun
    rw [attempted_snoc, List.map_append, htry]
    cases d'.writer.task.held? <;> rfl
  refine ⟨?_, ?_⟩
  · rw [replied_snoc, queued_snoc, attempted_snoc, htry]
    simpa [Page.reply?, Page.frame?] using h.flow.deed hdeed
  · rw [hbegun, accepted_snoc]
    exact h.progress.deed hdeed

/-- An event at which the writer does nothing keeps what holds if what came in waits and the
reasons that the writer has had stay good. -/
theorem Kept.idle (h : d.Kept s log) {e : Event} (he : e ≠ .work)
    (hr : d'.outlet.replies = d.outlet.replies ++ (⟨d, e⟩ : Page).reply?.toList)
    (hq : d'.outlet.queue.frames = d.outlet.queue.frames ++ (⟨d, e⟩ : Page).frame?.toList)
    (hj : ∀ why, d.outlet.Justifies why → d'.outlet.Justifies why)
    (ht : d'.writer.task = d.writer.task ∨ d'.writer.task = .aborted) :
    d'.Kept s (log ++ [⟨d, e⟩]) := by
  have htry : (⟨d, e⟩ : Page).attempt? s = none := by
    cases e with
    | work => exact absurd rfl he
    | _ => rfl
  have htake : (⟨d, e⟩ : Page).accept? = none := by
    cases e with
    | work => exact absurd rfl he
    | _ => rfl
  refine ⟨⟨?_, ?_, ?_⟩, ?_⟩
  · rw [replied_snoc, attempted_snoc, htry, hr, h.flow.replies]
    simp
  · rw [queued_snoc, attempted_snoc, htry, hq, h.flow.frames]
    simp
  · rw [attempted_snoc, htry]
    simpa using h.flow.genuine
  · have hprogress := h.progress.keep hj
    unfold begun at hprogress ⊢
    rw [attempted_snoc, accepted_snoc, htry, htake]
    simp only [Option.toList_none, List.append_nil]
    rcases ht with ht | ht
    · exact ht ▸ hprogress
    · exact ht ▸ hprogress.aborted

theorem Kept.after (h : d.Kept s log) {e : Event} (hd : d.after? s e = some d') :
    d'.Kept s (log ++ [⟨d, e⟩]) := by
  cases e with
  | work => exact h.work hd
  | reply e =>
    simp only [after?, Bool.and_eq_true] at hd
    split at hd
    · rename_i hreader
      obtain rfl := Option.some.inj hd
      refine h.idle (by simp) rfl (by simp [Page.frame?]) (fun why hj => ?_) (.inl rfl)
      refine ⟨hj.unfailed, fun hw => ?_, hj.queue⟩
      -- a writer leaves for its client only once the reader is gone, who could still have spoken
      have hgone := (hj.client hw).2
      rw [hreader.2] at hgone
      cases hgone
    · cases hd
  | dismiss =>
    obtain rfl := Option.some.inj hd
    refine h.idle (by simp) (by simp [Page.reply?]) (by simp [Page.frame?]) (fun why hj => ?_)
      (.inl rfl)
    exact ⟨hj.unfailed, fun hw => ⟨(hj.client hw).1, rfl⟩, hj.queue⟩
  | enqueue e =>
    simp only [after?, Bool.and_eq_true] at hd
    split at hd
    · rename_i hopen
      obtain rfl := Option.some.inj hd
      refine h.idle (by simp) (by simp [Page.reply?]) rfl (fun why hj => ?_) (.inl rfl)
      refine ⟨hj.unfailed, hj.client, fun hw => ?_⟩
      -- and for its queue only once that has ended, so that it takes no more
      have hended := (hj.queue hw).2
      rw [Queue.isEnded_eq_false hopen.1.2 (Option.isNone_iff_eq_none.mp hopen.2)] at hended
      cases hended
    · cases hd
  | release =>
    obtain rfl := Option.some.inj hd
    refine h.idle (by simp) (by simp [Page.reply?]) (by simp [Page.frame?, Queue.release])
      (fun why hj => ?_) (.inl rfl)
    exact ⟨hj.unfailed, hj.client, fun hw =>
      ⟨(hj.queue hw).1, by simp [Queue.isEnded, Queue.release]⟩⟩
  | setSocket socket =>
    obtain rfl := Option.some.inj hd
    exact h.idle (by simp) (by simp [Page.reply?]) (by simp [Page.frame?])
      (fun why hj => ⟨hj.unfailed, hj.client, hj.queue⟩) (.inl rfl)
  | setTime now seen =>
    obtain rfl := Option.some.inj hd
    exact h.idle (by simp) (by simp [Page.reply?]) (by simp [Page.frame?]) (fun _ hj => hj)
      (.inl rfl)
  | abort =>
    simp only [after?] at hd
    split at hd
    · obtain rfl := Option.some.inj hd
      exact h.idle (by simp) (by simp [Page.reply?]) (by simp [Page.frame?]) (fun _ hj => hj)
        (.inr rfl)
    · cases hd

end Desk

theorem Shift.kept {s : Settings} {capacity : Nat} {socket : Socket} {now seen : Instant}
    {log : List Page} {d : Desk} (h : Shift s (.opening capacity socket now seen) log d) :
    d.Kept s log := by
  induction h with
  | start => exact Desk.kept_opening s capacity socket now seen
  | next _ hd ih => exact ih.after hd

/-! ## What is written -/

/-- The envelopes among some frames are the first of the replies and the first of the hub's frames,
merged. -/
def Merges (replies frames : List Envelope) (written : List Outgoing) : Prop :=
  ∃ a b, a <+: replies ∧ b <+: frames ∧ Merge a b (envelopes written)

/--
Everything about the order in which a writer writes. The peer may have got the last of the frames
that were begun even if it was not taken, so what the peer has `got` lies between the two.
-/
structure WellWritten (s : Settings) (log : List Page) (d : Desk) : Prop where
  merged : ∀ got, accepted log <+: got → got <+: begun s log →
    Merges (replied log) (queued log) got
  /-- When the writer takes up one of the hub's frames, every reply that had come in has been
  taken. -/
  repliesFirst : ∀ before p after frame, log = before ++ p :: after →
    p.attempt? s = some (.hub, frame) →
    p.desk.outlet.replies = [] ∧
      ∃ b, b <+: queued before ∧ Merge (replied before) b (envelopes (accepted before))
  inOrder : accepted log <+: begun s log
  /-- A frame is accepted by being added to what has been sent. -/
  sent : ∀ before p after d', log = before ++ p :: after → p.event = .work →
    p.desk.after? s .work = some d' → p.desk.writer.task.ending? = none →
    d'.outlet.socket.sent = p.desk.outlet.socket.sent ++ p.accept?.toList
  /-- A goodbye is the last frame that is begun, and there is only one. -/
  closesLast : ∀ before code after, begun s log = before ++ .close code :: after →
    after = [] ∧ ∀ frame ∈ before, frame.isClose = false
  clientClosed : d.writer.task = .finished .clientClosed →
    ∃ b, b <+: queued log ∧ Merge (replied log) b (envelopes (accepted log))
  queueClosed : d.writer.task = .finished .queueClosed →
    ∃ a, a <+: replied log ∧ Merge a (queued log) (envelopes (accepted log))
  /-- The frame that failed is the last that was begun. -/
  writeFailed : d.writer.task = .finished .writeFailed →
    ∃ frame, frame.isClose = false ∧ begun s log = accepted log ++ [frame]
  /-- Whatever else ends a writer, it writes a goodbye. -/
  goodbye : ∀ why, d.writer.task = .finished why → why ≠ .writeFailed →
    ∃ before, begun s log = before ++ [.close none] ∧
      (accepted log = before ∨ accepted log = begun s log)

/-- Frames of the hub are taken up only when no reply is seen to wait. -/
theorem Deed.of_source_hub {o o' : Outlet} {missed : List Inlet} {t t' : WriterTask}
    (h : Deed o missed t t' o') (hs : o.source o' = .hub) :
    o.IsQuiet missed ∧ t.isIdle = true := by
  cases h with
  | frame _ ht hquiet => exact ⟨hquiet, ht⟩
  | reply _ _ hr => simp [Outlet.source, hr] at hs
  | rest | ping | leave | write | fail | part | vanish | close => simp [Outlet.source] at hs

namespace Desk.Kept

variable {s : Settings} {log : List Page} {d : Desk}

/-- The first of the frames that were begun are a merge of what they were taken up from. -/
theorem merge_of_prefix (h : d.Kept s log) {got : List Outgoing} (hgot : got <+: begun s log) :
    ∃ tried, tried <+: attempted s log ∧ tried.map Prod.snd = got ∧
      Merge (takenUp .reader tried) (takenUp .hub tried) (envelopes got) := by
  have htried : ((attempted s log).take got.length).map Prod.snd = got := by
    rw [List.map_take]
    exact (List.prefix_iff_eq_take.mp hgot).symm
  refine ⟨_, List.take_prefix _ _, htried, ?_⟩
  conv => enter [3]; rw [← htried]
  exact merge_takenUp fun a ha => h.flow.genuine a (List.mem_of_mem_take ha)

theorem reader_first (h : d.Kept s log) : takenUp .reader (attempted s log) <+: replied log :=
  h.flow.replies ▸ List.prefix_append _ _

theorem hub_first (h : d.Kept s log) : takenUp .hub (attempted s log) <+: queued log :=
  h.flow.frames ▸ List.prefix_append _ _

theorem merges (h : d.Kept s log) {got : List Outgoing} (hgot : got <+: begun s log) :
    Merges (replied log) (queued log) got := by
  obtain ⟨tried, htried, -, hmerge⟩ := h.merge_of_prefix hgot
  exact ⟨_, _, (takenUp_mono htried).trans h.reader_first,
    (takenUp_mono htried).trans h.hub_first, hmerge⟩

/-- A goodbye carries nothing. -/
theorem merge_accepted (h : d.Kept s log) {before : List Outgoing}
    (hbegun : begun s log = before ++ [.close none])
    (haccepted : accepted log = before ∨ accepted log = begun s log) :
    Merge (takenUp .reader (attempted s log)) (takenUp .hub (attempted s log))
      (envelopes (accepted log)) := by
  have hsame : envelopes (accepted log) = envelopes (begun s log) := by
    rcases haccepted with ha | ha
    · rw [ha, hbegun]
      simp [envelopes, Outgoing.envelope?]
    · rw [ha]
  rw [hsame]
  exact merge_takenUp h.flow.genuine

theorem repliesFirst (h : d.Kept s log) {e : Desk.Event} {frame : Outgoing}
    (ha : (⟨d, e⟩ : Page).attempt? s = some (.hub, frame)) :
    d.outlet.replies = [] ∧
      ∃ b, b <+: queued log ∧ Merge (replied log) b (envelopes (accepted log)) := by
  cases e with
  | work =>
    obtain ⟨d', hd, ha⟩ := Option.bind_eq_some_iff.mp ha
    obtain ⟨_, -, ha⟩ := Option.map_eq_some_iff.mp ha
    obtain ⟨hquiet, hidle⟩ := (deed_of_work hd).of_source_hub (congrArg Prod.fst ha)
    obtain ⟨hreplies, -⟩ := hquiet List.not_mem_nil
    obtain ⟨heq, -⟩ := h.progress.of_isIdle hidle
    refine ⟨hreplies, _, h.hub_first, ?_⟩
    rw [h.flow.replies, hreplies, List.append_nil, ← heq]
    exact merge_takenUp h.flow.genuine
  | reply | dismiss | enqueue | release | setSocket | setTime | abort => cases ha

theorem closesLast (h : d.Kept s log) {before after : List Outgoing} {code : Option CloseCode}
    (heq : begun s log = before ++ .close code :: after) :
    after = [] ∧ ∀ frame ∈ before, frame.isClose = false := by
  have hopen := h.progress.isOpen_dropLast
  rw [heq] at hopen
  rcases List.eq_nil_or_concat after with rfl | ⟨after, frame, rfl⟩
  · rw [List.dropLast_concat] at hopen
    exact ⟨rfl, hopen⟩
  · rw [List.concat_eq_append, ← List.cons_append, ← List.append_assoc, List.dropLast_concat]
      at hopen
    have hclose := hopen (.close code) (by simp)
    cases hclose

end Desk.Kept

/-- The writer preserves the order of the replies and of the hub's frames, and closes last: in every
shift, under any settings and whatever the way out does. -/
theorem well_written {s : Settings} {capacity : Nat} {socket : Socket} {now seen : Instant}
    {log : List Page} {d : Desk} (h : Shift s (.opening capacity socket now seen) log d) :
    WellWritten s log d := by
  have hkept := h.kept
  refine ⟨fun got _ hgot => hkept.merges hgot, ?_, hkept.progress.isPrefix, ?_,
    fun _ _ _ heq => hkept.closesLast heq, ?_, ?_, ?_, ?_⟩
  · intro before p after frame hlog ha
    obtain ⟨hbefore, -⟩ := h.split hlog
    exact hbefore.kept.repliesFirst ha
  · rintro before ⟨desk, e⟩ after d' - rfl hd ht
    exact (Desk.deed_of_work hd).sent ht
  · intro ht
    rcases (ht ▸ hkept.progress).of_finished with ⟨hw, -⟩ | ⟨hj, before, hbegun, haccepted⟩
    · cases hw
    · refine ⟨_, hkept.hub_first, ?_⟩
      rw [hkept.flow.replies, (hj.client rfl).1, List.append_nil]
      exact hkept.merge_accepted hbegun haccepted
  · intro ht
    rcases (ht ▸ hkept.progress).of_finished with ⟨hw, -⟩ | ⟨hj, before, hbegun, haccepted⟩
    · cases hw
    · refine ⟨_, hkept.reader_first, ?_⟩
      rw [hkept.flow.frames, (hj.queue rfl).1, List.append_nil]
      exact hkept.merge_accepted hbegun haccepted
  · intro ht
    rcases (ht ▸ hkept.progress).of_finished with ⟨-, hfailed⟩ | ⟨hj, -⟩
    · exact hfailed
    · exact absurd rfl hj.unfailed
  · intro why ht hwhy
    rcases (ht ▸ hkept.progress).of_finished with ⟨hw, -⟩ | ⟨-, hleft⟩
    · exact absurd hw hwhy
    · exact hleft

/-! ## An afternoon at a desk -/

namespace Afternoon

def desk : Desk := .opening 2 (.new .plain) 0 0

def wrap (m : Message) : Envelope := .wrap ⟨⟨2024, 1, 1⟩, 0, 0, 0, 0⟩ m

/-- A reply and a frame wait at first. The reader says one thing more and goes while the hub's first
frame is being written, so that the second is never taken up. -/
def events : List Desk.Event :=
  [.enqueue (wrap (.event (.userOnline "bob" none))), .reply (wrap (.authOk "ann"))] ++
  List.replicate 4 .work ++
  [.enqueue (wrap (.event (.userOffline "bob"))), .reply (wrap (.unsubscribed [])), .dismiss] ++
  List.replicate 6 .work

theorem possible : (desk.follow? .standard events).isSome = true := by decide +kernel

def done : Desk := (desk.follow? .standard events).get possible

def log : List Page := desk.logOf .standard events

theorem shift : Shift .standard desk log done :=
  Shift.start.follow (Option.some_get possible).symm

/-- Both replies and one of the two frames have been written, and a goodbye. -/
theorem ended : done.writer.task.ending? = some .clientClosed ∧ (replied log).length = 2 ∧
    (queued log).length = 2 ∧ (accepted log).length = 4 := by
  decide +kernel

end Afternoon

theorem well_written_afternoon : WellWritten .standard Afternoon.log Afternoon.done ∧
    Afternoon.done.writer.task.ending? = some .clientClosed ∧
    (replied Afternoon.log).length = 2 ∧ (queued Afternoon.log).length = 2 ∧
    (accepted Afternoon.log).length = 4 :=
  ⟨well_written Afternoon.shift, Afternoon.ended⟩

end Switchboard
