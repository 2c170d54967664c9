-- The story that a real-time clock tells its watchers. Changes of pace
-- alternate over the whole of its life, one start and one stop frame the run,
-- and nothing is told after the stop.
import Metronome.Proofs.RealTime.Course
import Metronome.Proofs.RealTime.Release
import Metronome.Proofs.Watchers
import Mathlib.Data.List.Chain

namespace Metronome

/-! ## Stories -/

def Event.isSwitch : Event → Bool
  | .switchToRealTime | .switchToSimTime => true
  | _ => false

theorem Mode.event_isSwitch {m : Mode} (h : m ≠ .stopped) : m.event.isSwitch = true := by
  cases m <;> first | rfl | exact absurd rfl h

theorem Mode.event_injective {m m' : Mode} (h : m.event = m'.event) : m = m' := by
  cases m <;> cases m' <;> first | rfl | cases h

/-- The paces that the watchers know of, from the first one on. -/
def paces (first : Mode) (l : List Notice) : List Event :=
  first.event :: (l.map (·.event)).filter Event.isSwitch

/-- The start and the stop. -/
def landmarks (l : List Notice) : List Notice := l.filter fun n => !n.event.isSwitch

/-- What a clock may have told until `now`. -/
structure Tale (first : Mode) (tickLength now : Int) (l : List Notice) : Prop where
  alternates : (paces first l).IsChain (· ≠ ·)
  onTicks : ∀ n ∈ l, ∃ k : Nat, n.time = k * tickLength
  inOrder : l.Pairwise fun n n' => n.time ≤ n'.time
  past : ∀ n ∈ l, n.time ≤ now

variable {first : Mode} {L now : Int} {l : List Notice}

theorem paces_append_switch {e : Event} (he : e.isSwitch = true) :
    paces first (l ++ [⟨e, now⟩]) = paces first l ++ [e] := by
  simp [paces, he]

theorem paces_append_landmark {e : Event} (he : e.isSwitch = false) :
    paces first (l ++ [⟨e, now⟩]) = paces first l := by
  simp [paces, he]

theorem landmarks_append_switch {e : Event} (he : e.isSwitch = true) :
    landmarks (l ++ [⟨e, now⟩]) = landmarks l := by
  simp [landmarks, he]

theorem landmarks_append_landmark {e : Event} (he : e.isSwitch = false) :
    landmarks (l ++ [⟨e, now⟩]) = landmarks l ++ [⟨e, now⟩] := by
  simp [landmarks, he]

namespace Tale

theorem later (h : Tale first L now l) {now' : Int} (hle : now ≤ now') : Tale first L now' l :=
  ⟨h.alternates, h.onTicks, h.inOrder, fun n hn => Int.le_trans (h.past n hn) hle⟩

/-- Every event has its place in the story but a change to the pace that the clock has anyway. -/
theorem tell (h : Tale first L now l) (hnow : ∃ k : Nat, now = k * L) {e : Event}
    (he : e.isSwitch = true → (paces first l).getLast? ≠ some e) :
    Tale first L now (l ++ [⟨e, now⟩]) where
  alternates := by
    by_cases hs : e.isSwitch = true
    · rw [paces_append_switch hs]
      refine h.alternates.append (List.isChain_singleton e) ?_
      intro x hx y hy hxy
      have hy : e = y := by simpa using hy
      rw [hxy, ← hy] at hx
      exact he hs hx
    · rw [paces_append_landmark (Bool.eq_false_iff.mpr hs)]
      exact h.alternates
  onTicks n hn := by
    rcases List.mem_append.mp hn with hn | hn
    · exact h.onTicks n hn
    · rw [List.mem_singleton.mp hn]
      exact hnow
  inOrder := by
    refine List.pairwise_append.mpr ⟨h.inOrder, List.pairwise_singleton _ _, ?_⟩
    intro n hn n' hn'
    rw [List.mem_singleton.mp hn']
    exact h.past n hn
  past n hn := by
    rcases List.mem_append.mp hn with hn | hn
    · exact h.past n hn
    · exact Int.le_of_eq (congrArg Notice.time (List.mem_singleton.mp hn))

end Tale

namespace RealTimeClock

variable {σ : Type} {base c d : RealTimeClock} {i : Nat} {taken : List Notice}

/-! ## A change of pace is told -/

/-- The clock and what watcher `i` was told, in the words of its last pace. -/
structure Tells (first : Mode) (L : Int) (i : Nat) (taken : List Notice) (c : RealTimeClock)
    (l : List Notice) : Prop where
  sent : c.feed.Sent i taken l
  tale : Tale first L c.time l
  onTick : ∃ k : Nat, c.time = k * L

theorem Tells.of_eq (h : Tells first L i taken c l) (hf : d.feed = c.feed)
    (ht : d.time = c.time) : Tells first L i taken d l :=
  ⟨hf ▸ h.sent, ht ▸ h.tale, ht ▸ h.onTick⟩

theorem Tells.publish (h : Tells first L i taken c l) {e : Event}
    (he : e.isSwitch = true → (paces first l).getLast? ≠ some e) :
    Tells first L i taken (c.publish e) (l ++ [⟨e, c.time⟩]) :=
  ⟨h.sent.publish _, h.tale.tell h.onTick he, h.onTick⟩

/-- The tale goes on with a change of pace if there is one. -/
theorem Tells.told (h : Tells first L i taken c l) (hd : Told c d) (ht : d.time = c.time)
    (hl : (paces first l).getLast? = some c.mode.event) :
    ∃ l', Tells first L i taken d l' ∧ landmarks l' = landmarks l ∧
      (paces first l').getLast? = some d.mode.event := by
  rcases hd with ⟨hmode, hfeed⟩ | ⟨hne, hgoes, hfeed⟩
  · exact ⟨l, h.of_eq hfeed ht, rfl, by rw [hmode, hl]⟩
  · have hs := Mode.event_isSwitch hgoes
    have hother (_ : d.mode.event.isSwitch = true) :
        (paces first l).getLast? ≠ some d.mode.event := by
      intro he
      rw [hl] at he
      exact hne (Mode.event_injective (Option.some.inj he)).symm
    refine ⟨_, (h.publish hother).of_eq hfeed ht, landmarks_append_switch hs, ?_⟩
    rw [paces_append_switch hs, List.getLast?_concat]

/-! ## The story of a run -/

/-- What is told of a run that goes on. The watchers know its pace until someone stops it. -/
structure Running (first : Mode) (L : Int) (i : Nat) (taken : List Notice) (c : RealTimeClock)
    (l : List Notice) : Prop extends Tells first L i taken c l where
  started : landmarks l = [⟨.started, 0⟩]
  pace : c.pacing.stage.isRunning = true → (paces first l).getLast? = some c.mode.event

theorem Running.boundary (h : Running first L i taken c l) (hd : c.applyPending = .ok d) :
    ∃ l', Running first L i taken d l' := by
  obtain ⟨e, he, hg⟩ := applyPending_ok c
  rw [hd] at he
  cases he
  by_cases hrun : c.pacing.stage.isRunning = true
  · obtain ⟨l', htells, hmarks, hlast⟩ :=
      h.toTells.told (applyPending_told hd) hg.time (h.pace hrun)
    exact ⟨l', htells, hmarks.trans h.started, fun _ => hlast⟩
  · have hstage := grantedStage_isRunning c.pacing.pending c.pacing.stage
    have hmode : d.mode = c.mode := by
      unfold mode
      rw [hg.stage]
      cases hp : c.pacing.pending <;> cases hs : c.pacing.stage <;>
        simp [hs, grantedStage, Stage.isRunning] at hrun ⊢
    refine ⟨l, h.toTells.of_eq ((applyPending_told hd).feed hmode) hg.time, h.started, fun hr => ?_⟩
    rw [hg.stage, hstage] at hr
    exact absurd hr hrun

/-- A tick tells nothing. Its end is where the next news may come. -/
theorem Running.tick {behave : Behaviour σ} (hb : behave.Asks (Call.LeavesHeld i))
    (hL : 0 < base.tickLength) {thread : Thread} (hdue : Due base thread c)
    (h : Running first base.tickLength i taken c l) (world : σ) :
    let r := (dispatch (keeping i behave) thread (c, (world, taken))).1
    Running first base.tickLength i r.2.2 r.1 l := by
  have hready := hdue.ready
  have hpublic := keeping_public hb
  intro r
  have hstage := tick_keeps_stage hpublic hready.steady.begun thread (world, taken)
  have htold : r.1.feed.Sent i r.2.2 l ∧
      (r.1.time = c.time ∨ r.1.time = c.time + base.tickLength) := by
    have hlent (lent : RealTimeClock) (hl : c.lend = .ok lent) :
        Lent base c.time lent ∧ lent.feed.Sent i taken l :=
      ⟨hready.lent hL hl, by rw [(lend_pacing hl).2.2]; exact h.sent⟩
    rcases ((lent_notes base c.time i l).behaviour hb).tick_cases thread (world, taken) hlent with
      ⟨e, -, he⟩ | ⟨lent, d, world', e, -, hd, he⟩ | ⟨lent, d, world', -, hd, he⟩
    · simp only [r, dispatch, he]
      exact ⟨h.sent, .inl trivial⟩
    · simp only [r, dispatch, he]
      exact ⟨hd.2, .inl hd.1.time⟩
    · simp only [r, dispatch, he]
      rw [d.advance_moved.feed]
      exact ⟨hd.2, .inr (hd.1.advance hready.time hL).2.1⟩
  obtain ⟨hsent, htime⟩ := htold
  refine ⟨⟨hsent, h.tale.later ?_, ?_⟩, h.started, ?_⟩
  · omega
  · obtain ⟨k, hk⟩ := h.onTick
    rcases htime with ht | ht
    · exact ⟨k, ht.trans hk⟩
    · refine ⟨k + 1, ?_⟩
      rw [ht, hk]
      simp [Int.add_mul]
  · intro hrun
    rcases hstage with hs | ⟨hs, -⟩
    · have hmode : mode r.1 = c.mode := congrArg Stage.mode hs
      rw [hmode]
      exact h.pace (hs ▸ hrun)
    · rw [hs] at hrun
      cases hrun

/-- From tick to tick and from boundary to boundary, a run goes on with its story. -/
theorem running_course {behave : Behaviour σ} (hb : behave.Asks (Call.LeavesHeld i))
    (hL : 0 < base.tickLength) (first : Mode) :
    Course base (fun _ world => world) (keeping i behave) fun st =>
      ∃ l, Running first base.tickLength i st.2.2 st.1 l where
  aside c pacing world hs _ := by
    rintro ⟨l, h⟩
    refine ⟨l, h.toTells.of_eq rfl rfl, h.started, fun hrun => ?_⟩
    have hmode : mode { c with pacing } = c.mode := congrArg Stage.mode hs
    rw [hmode]
    exact h.pace (hs ▸ hrun)
  boundary c d world _ hd := by
    rintro ⟨l, h⟩
    exact h.boundary hd
  tick thread c world hdue := by
    rintro ⟨l, h⟩
    exact ⟨l, h.tick hb hL hdue world.1⟩

/-! ## The beginning and the end -/

/-- What is told before the run. -/
structure Waiting (first : Mode) (L : Int) (i : Nat) (taken : List Notice) (c : RealTimeClock)
    (l : List Notice) : Prop extends Tells first L i taken c l where
  rested : Rested c
  tickLength : c.tickLength = L
  thread : c.pacing.settings.threadCanStart = true
  unstarted : landmarks l = []
  pace : (paces first l).getLast? = some c.mode.event

/-- What was told when all is over. -/
structure Over (first : Mode) (L : Int) (i : Nat) (taken : List Notice) (c : RealTimeClock)
    (l : List Notice) : Prop extends Tells first L i taken c l where
  stopped : c.pacing.stage = .stopped
  framed : landmarks l = [⟨.started, 0⟩, ⟨.stopped, c.time⟩]
  last : l.getLast? = some ⟨.stopped, c.time⟩

theorem mode_begun (s : Stage) : (Stage.begun s).mode = s.mode := by
  cases s <;> rfl

theorem Waiting.launch (h : Waiting first L i taken c l) :
    ∃ d l', c.launch = .ok d ∧ Ready c d ∧ d.pacing.pending = .none ∧
      Running first L i taken d l' := by
  rcases h.rested.launch with ⟨d, hd, hready, hpend, -, -, hstage⟩ | ⟨f, -, hno⟩
  · obtain ⟨pacing, heq⟩ := launch_eq hd
    have hbegun : Tells first L i taken (Clock.beginTicking { c with pacing }) l := by
      unfold Clock.beginTicking
      split <;> exact h.toTells.of_eq rfl rfl
    have htold := hbegun.publish (e := .started) fun hs => by cases hs
    have htime : (Clock.beginTicking { c with pacing }).time = 0 := by
      unfold Clock.beginTicking
      split <;> exact h.rested.time
    have hmode : d.mode = c.mode := by
      unfold mode
      rw [hstage, mode_begun]
    rw [← heq, htime] at htold
    refine ⟨d, _, hd, hready, hpend, htold, ?_, fun _ => ?_⟩
    · rw [landmarks_append_landmark rfl, h.unstarted]
      rfl
    · rw [paces_append_landmark rfl, hmode]
      exact h.pace
  · rw [h.thread] at hno
    cases hno

/-- Whoever ends a run, the watchers hear of it once. -/
theorem Running.conclude (h : Running first L i taken c l) (hs : Steady base c) :
    ∃ l', Over first L i taken c.conclude l' := by
  rw [conclude_eq hs]
  have hended : Tells first L i taken c.ended l := h.toTells.of_eq rfl rfl
  refine ⟨_, hended.publish fun he => (by cases he), rfl, ?_, List.getLast?_concat⟩
  rw [landmarks_append_landmark rfl, h.started]
  rfl

/-- A start tells the whole story of the run. -/
theorem Waiting.start {behave : Behaviour σ} (hb : behave.Asks (Call.LeavesHeld i))
    (h : Waiting first L i taken c l) (world : σ) :
    let r := start (dispatch (keeping i behave)) (c, (world, taken))
    ∃ l', Over first L i r.1.2.2 r.1.1 l' := by
  obtain ⟨d, l', hl, hready, hpend, hrun⟩ := h.launch
  have hL := h.rested.tickLength
  have hneed := need_lt_enoughSteps d
  obtain ⟨e, world', ending, -, hsteps, -, hready', -, hbroken⟩ :=
    hready.steps (keeping_public hb) hL (fun _ => hpend) hneed (world, taken) []
  obtain ⟨-, l'', hrun'⟩ := (running_course hb hL first).steps (keeping_public hb) hL
    d.enoughSteps .choosing (world, taken) ⟨hready, hpend, l', h.tickLength ▸ hrun⟩
  have hsame : marked (fun _ world => world) (keeping i behave) = dispatch (keeping i behave) := rfl
  rw [hsame, hsteps, h.tickLength] at hrun'
  intro r
  have hr : r = ((ending.leaves e, world'), ending) := start_eq hl hsteps
  rw [hr]
  cases ending with
  | broken f =>
    have hno := hbroken f rfl
    rw [hready'.steady.settings, h.thread] at hno
    cases hno
  | _ => exact hrun'.conclude hready'.steady

/-! ## Calls from outside -/

/-- A request before the run is granted at once, and told if it changes the pace. -/
theorem Waiting.moveTo (h : Waiting first L i taken c l) {next : Stage}
    (hn : next.isInitial = true) : ∃ l', Waiting first L i taken (c.moveTo next) l' := by
  have hmode : next.mode ≠ .stopped := by
    cases next <;> simp [Stage.mode, Stage.isInitial] at hn ⊢
  obtain ⟨feed, hm⟩ := moveTo_eq c next
  obtain ⟨l', htells, hmarks, hlast⟩ :=
    h.toTells.told (moveTo_told c hmode) (by rw [hm]) h.pace
  refine ⟨l', htells, h.rested.moveTo hn, ?_, ?_, hmarks.trans h.unstarted, hlast⟩
  · rw [hm]
    exact h.tickLength
  · rw [hm]
    exact h.thread

theorem Waiting.serve (h : Waiting first L i taken c l) {call : Call} (hl : call.LeavesHeld i)
    (hs : call ≠ .start) :
    ∃ l', Waiting first L i (Feed.keep i call (serve c call).2 taken) (serve c call).1 l' := by
  have hi := h.rested.initial
  by_cases ht : call.isTurning = true
  · cases call with
    | start => exact absurd rfl hs
    | stop =>
      obtain ⟨e, he⟩ := stop_initial hi
      simp only [RealTimeClock.serve, answer, he, settle]
      exact ⟨l, h⟩
    | switchToRealTime =>
      simp only [RealTimeClock.serve, answer, settle]
      rcases switchToRealTime_initial hi with he | he <;> rw [he]
      · exact ⟨l, h⟩
      · exact h.moveTo rfl
    | switchToSimulated =>
      simp only [RealTimeClock.serve, answer, settle]
      rcases switchToSimulated_initial hi with he | he <;> rw [he]
      · exact ⟨l, h⟩
      · exact h.moveTo rfl
    | _ => cases ht
  · have hsent := serve_sent hl (fun h' => absurd h' ht) h.sent
    have hrested := h.rested.serve hl.1 hs
    obtain ⟨_, _, _, _, he, -⟩ := serve_plain c hl.1 (Bool.eq_false_iff.mpr ht)
    rw [he] at hsent hrested ⊢
    exact ⟨l, ⟨hsent, h.tale, h.onTick⟩, hrested, h.tickLength, h.thread, h.unstarted, h.pace⟩

/-- Nothing is told when all is over. -/
theorem Over.serve (h : Over first L i taken c l) {call : Call} (hl : call.LeavesHeld i) :
    Over first L i (Feed.keep i call (serve c call).2 taken) (serve c call).1 l := by
  have hbegun : c.pacing.stage.isInitial = false := by rw [h.stopped]; rfl
  have hkept : (RealTimeClock.serve c call).1.time = c.time ∧
      (RealTimeClock.serve c call).1.pacing.stage = .stopped := by
    rcases serve_cases hl.1 hbegun with ⟨-, he⟩ | hs
    · rw [he]
      exact ⟨rfl, rfl⟩
    · exact ⟨hs.time, hs.stage.trans h.stopped⟩
  obtain ⟨htime, hstage⟩ := hkept
  exact ⟨⟨serve_sent hl (fun _ => hbegun) h.sent, htime ▸ h.tale, htime ▸ h.onTick⟩, hstage,
    htime ▸ h.framed, htime ▸ h.last⟩

/-- A call from outside, by someone who keeps what the call takes out of the queue. -/
def watch (i : Nat) (behave : Behaviour σ) (call : Call) (st : RealTimeClock × (σ × List Notice)) :
    RealTimeClock × (σ × List Notice) :=
  let r := answer (dispatch (keeping i behave)) call st
  (r.1.1, (r.1.2.1, Feed.keep i call r.2 r.1.2.2))

/-- Calls from outside, one after another. -/
def watchAll (i : Nat) (behave : Behaviour σ) (calls : List Call)
    (st : RealTimeClock × (σ × List Notice)) : RealTimeClock × (σ × List Notice) :=
  calls.foldl (fun st call => watch i behave call st) st

/-- What watcher `i` was told before and after the run. -/
def Hears (first : Mode) (L : Int) (i : Nat) (st : RealTimeClock × (σ × List Notice)) : Prop :=
  ∃ l, Waiting first L i st.2.2 st.1 l ∨ Over first L i st.2.2 st.1 l

theorem Hears.watch {behave : Behaviour σ} (hb : behave.Asks (Call.LeavesHeld i))
    {st : RealTimeClock × (σ × List Notice)} (h : Hears first L i st) {call : Call}
    (hl : call.LeavesHeld i) : Hears first L i (watch i behave call st) := by
  obtain ⟨c, world, taken⟩ := st
  obtain ⟨l, h | h⟩ := h
  · by_cases hs : call = .start
    · subst hs
      obtain ⟨l', h'⟩ := h.start hb world
      exact ⟨l', .inr h'⟩
    · obtain ⟨l', h'⟩ := h.serve hl hs
      unfold RealTimeClock.watch
      rw [answer_eq_serve hl.1 hs]
      exact ⟨l', .inl h'⟩
  · have hbegun : c.pacing.stage.isInitial = false := by
      rw [show c.pacing.stage = .stopped from h.stopped]
      rfl
    unfold RealTimeClock.watch
    rw [answer_begun hbegun hl.1]
    exact ⟨l, .inr (h.serve hl)⟩

theorem Hears.watchAll {behave : Behaviour σ} (hb : behave.Asks (Call.LeavesHeld i))
    {calls : List Call} (hl : ∀ call ∈ calls, call.LeavesHeld i)
    {st : RealTimeClock × (σ × List Notice)} (h : Hears first L i st) :
    Hears first L i (watchAll i behave calls st) := by
  unfold RealTimeClock.watchAll
  induction calls generalizing st with
  | nil => exact h
  | cons call calls ih =>
    have hnext := h.watch hb (hl call (by simp))
    exact ih (fun call' h' => hl call' (List.mem_cons_of_mem _ h')) hnext

/-- Nobody notices that the notices are kept. -/
theorem watchAll_unnoticed {behave : Behaviour σ} {calls : List Call}
    (hp : ∀ call ∈ calls, call.isPublic = true) (c : RealTimeClock) (world : σ)
    (taken : List Notice) :
    let st := watchAll i behave calls (c, (world, taken))
    (st.1, st.2.1) = answerAll (dispatch behave) calls (c, world) := by
  unfold watchAll answerAll
  induction calls generalizing c world taken with
  | nil => rfl
  | cons call calls ih =>
    obtain ⟨taken', h⟩ := answer_unnoticed
      (fun thread => Clock.tick_scribed serve (Feed.keep i) behave thread) (hp call (by simp))
      c world taken
    have hw : watch i behave call (c, (world, taken)) =
        ((answer (dispatch behave) call (c, world)).1.1,
          ((answer (dispatch behave) call (c, world)).1.2,
            Feed.keep i call (answer (dispatch behave) call (c, world)).2 taken')) := by
      have h' : answer (dispatch (keeping i behave)) call (c, (world, taken)) = _ := h
      unfold watch
      rw [h']
      rfl
    rw [List.foldl_cons, List.foldl_cons, hw]
    exact ih (fun call' h' => hp call' (List.mem_cons_of_mem _ h')) _ _ _

/-! ## The whole story -/

/-- The story of a clock that began its life in the mode `first`. Its watchers heard `l`. -/
structure Story (first : Mode) (L : Int) (c : RealTimeClock) (l : List Notice) : Prop where
  alternates : (paces first l).IsChain (· ≠ ·)
  onTicks : ∀ n ∈ l, ∃ k : Nat, n.time = k * L
  inOrder : l.Pairwise fun n n' => n.time ≤ n'.time
  unstarted : c.mode ≠ .stopped →
    landmarks l = [] ∧ (paces first l).getLast? = some c.mode.event
  finished : c.mode = .stopped → landmarks l = [⟨.started, 0⟩, ⟨.stopped, c.time⟩] ∧
    l.getLast? = some ⟨.stopped, c.time⟩

theorem Hears.story {st : RealTimeClock × (σ × List Notice)} (h : Hears first L i st) :
    Story first L st.1 (st.2.2 ++ st.1.feed.queue i) := by
  obtain ⟨l, h | h⟩ := h
  · rw [h.sent.queue]
    have hmode : st.1.mode ≠ .stopped := by
      have hi := h.rested.initial
      unfold mode
      cases hs : st.1.pacing.stage <;> rw [hs] at hi <;> simp [Stage.mode, Stage.isInitial] at hi ⊢
    exact ⟨h.tale.alternates, h.tale.onTicks, h.tale.inOrder, fun _ => ⟨h.unstarted, h.pace⟩,
      fun hm => absurd hm hmode⟩
  · rw [h.sent.queue]
    have hmode : st.1.mode = .stopped := congrArg Stage.mode h.stopped
    exact ⟨h.tale.alternates, h.tale.onTicks, h.tale.inOrder, fun hm => absurd hmode hm,
      fun _ => ⟨h.framed, h.last⟩⟩

/-- A clock begins its life in the mode of its settings. -/
theorem built_mode {b : Blueprint} {openLog : PauseSettings → Pause.Source} {watch : Nat → Reading}
    (h : b.buildRealTime openLog watch = .ok c) : c.mode = b.settings.startingMode := by
  obtain ⟨stage, -, hmode, hmake⟩ :=
    Blueprint.built_of_valid (Blueprint.valid_of_built h) openLog watch
  rw [hmake] at h
  cases h
  exact hmode

/-- A watcher that comes before anything else has missed nothing. -/
theorem hears_of_built {b : Blueprint} {openLog : PauseSettings → Pause.Source}
    {reading : Nat → Reading} (h : b.buildRealTime openLog reading = .ok c)
    (hthread : b.settings.scheduler.threadCanStart = true) (behave : Behaviour σ) (world : σ) :
    Hears b.settings.startingMode b.settings.tickLength 0
      (watch 0 behave (.subscribe none) (c, (world, []))) := by
  have hrested := rested_of_built h
  have hmode := built_mode h
  obtain ⟨stage, period, pauses, rfl, -, -⟩ := built_eq h
  refine ⟨[], .inl ⟨⟨Feed.sent_subscribe {}, ?_, 0, by simp [watch, answer, make]⟩, ?_, rfl,
    hthread, rfl, ?_⟩⟩
  · exact ⟨List.isChain_singleton _, by simp, List.Pairwise.nil, by simp⟩
  · exact hrested.of_eq rfl rfl rfl rfl hrested.initial rfl rfl
  · rw [← hmode]
    rfl

/-- Whoever is refused, or asks for what is so already, is not heard of. -/
theorem quiet_request {tick : Tickers σ} {call : Call} {world : σ} (hp : call.isPublic = true)
    (hw : call.isWatching = false) (hs : call = .start → ∃ e, c.launch = .error e)
    (hquiet : (∃ e, (answer tick call (c, world)).2 = .error e) ∨
      (answer tick call (c, world)).1.1.mode = c.mode) :
    (answer tick call (c, world)).1.1.feed = c.feed := by
  by_cases hstart : call = .start
  · obtain ⟨e, he⟩ := hs hstart
    simp only [hstart, answer, start, he]
  rw [answer_eq_serve hp hstart] at hquiet ⊢
  by_cases hi : c.pacing.stage.isInitial = false
  · exact serve_feed hp hw fun _ => hi
  have hinit : c.pacing.stage.isInitial = true := by simpa using hi
  have hmoved (s : Stage) (hm : (c.moveTo s).mode = c.mode) : (c.moveTo s).feed = c.feed := by
    obtain ⟨feed, heq⟩ := moveTo_eq c s
    rw [heq] at hm
    unfold RealTimeClock.moveTo
    rw [if_pos (show s.mode = c.mode from hm)]
  cases call with
  | start => exact absurd rfl hstart
  | stop =>
    obtain ⟨e, he⟩ := stop_initial hinit
    simp only [serve, answer, he, settle]
  | switchToRealTime =>
    simp only [serve, answer, settle] at hquiet ⊢
    rcases switchToRealTime_initial hinit with he | he <;> rw [he] at hquiet ⊢
    rcases hquiet with ⟨e, h⟩ | h
    · cases h
    · exact hmoved _ h
  | switchToSimulated =>
    simp only [serve, answer, settle] at hquiet ⊢
    rcases switchToSimulated_initial hinit with he | he <;> rw [he] at hquiet ⊢
    rcases hquiet with ⟨e, h⟩ | h
    · cases h
    · exact hmoved _ h
  | _ => exact serve_feed hp hw fun h => by cases h

/-- Whatever is asked of a clock, and whatever its listeners do, a watcher that was there from the
beginning hears one story. -/
theorem a_watcher_hears_one_story {behave : Behaviour σ} (hb : behave.Asks (Call.LeavesHeld 0))
    {b : Blueprint} {openLog : PauseSettings → Pause.Source} {reading : Nat → Reading}
    {c : RealTimeClock} (hc : b.buildRealTime openLog reading = .ok c)
    (hthread : b.settings.scheduler.threadCanStart = true) {calls : List Call}
    (hcalls : ∀ call ∈ calls, call.LeavesHeld 0) (world : σ) :
    let st := watchAll 0 behave (.subscribe none :: calls) (c, (world, []))
    (st.1, st.2.1) = answerAll (dispatch behave) (.subscribe none :: calls) (c, world) ∧
    Story b.settings.startingMode b.settings.tickLength st.1 (st.2.2 ++ st.1.feed.queue 0) ∧
    ∀ (d : RealTimeClock) (w : σ) (call : Call), call.isPublic = true → call.isWatching = false →
      (call = .start → ∃ e, d.launch = .error e) →
      ((∃ e, (perform behave call (d, w)).2 = .error e) ∨
        (perform behave call (d, w)).1.1.mode = d.mode) →
      (perform behave call (d, w)).1.1.feed = d.feed := by
  refine ⟨watchAll_unnoticed ?_ c world [], ?_, fun d w call hp hw hs => quiet_request hp hw hs⟩
  · intro call hcall
    rcases List.mem_cons.mp hcall with rfl | hcall
    · rfl
    · exact (hcalls call hcall).1
  · exact ((hears_of_built hc hthread behave world).watchAll hb hcalls).story

theorem restless_leavesHeld : restless.Asks (Call.LeavesHeld 0) := by
  intro v n
  unfold restless
  split
  · exact ⟨⟨rfl, Call.noConfusion⟩, fun _ => trivial⟩
  · exact ⟨⟨rfl, Call.noConfusion⟩, fun _ => trivial⟩
  · exact ⟨⟨rfl, Call.noConfusion⟩, fun _ => trivial⟩
  · trivial

/-- A request before the start, two inside the run, and others when all is over. -/
theorem a_watcher_hears_the_story_of_a_restless_run :
    let calls := [.switchToSimulated, .register "a", .start, .drain 0, .switchToRealTime, .stop]
    let st := watchAll 0 restless (.subscribe none :: calls) ({ plain with roster := {} }, (0, []))
    let told := st.2.2 ++ st.1.feed.queue 0
    told = [⟨.switchToSimTime, 0⟩, ⟨.started, 0⟩, ⟨.switchToRealTime, 2000⟩, ⟨.stopped, 2000⟩] ∧
      Story .realTime 1000 st.1 told := by
  have hc : ({} : Blueprint).buildRealTime (fun _ => .silent) (fun _ => ⟨0, 0⟩) =
      .ok { plain with roster := {} } := rfl
  have hcalls : ∀ call ∈ [Call.switchToSimulated, .register "a", .start, .drain 0,
      .switchToRealTime, .stop], call.LeavesHeld 0 := by
    simp [Call.LeavesHeld, Call.isPublic]
  exact ⟨rfl, (a_watcher_hears_one_story restless_leavesHeld hc rfl hcalls 0).2.1⟩

end RealTimeClock

end Metronome
