-- The pace of every tick, and the requests that were made in it. How a tick
-- is paced follows from the tick before it: in simulated time one request for
-- real time is enough, but in real time the last request counts.
import Metronome.Proofs.RealTime.Course
import Metronome.Proofs.RealTime.Wishes
import Metronome.Proofs.Scribes
import Mathlib.Data.List.Chain

namespace Metronome

/-! ## Beats -/

/-- A tick: its pace, and the requests that were accepted in it, oldest first. -/
structure Beat where
  mode : Mode
  wishes : List Mode := []
  deriving DecidableEq, Repr

namespace Beat

/-- The pace of the tick after this one. -/
def next (b : Beat) : Mode :=
  match b.mode with
  | .realTime => if b.wishes.getLast? = some .simulated then .simulated else .realTime
  | .simulated => if .realTime ∈ b.wishes then .realTime else .simulated
  | .stopped => .stopped

/-- A request that is refused counts for nothing. -/
def hear : Call → Answer → Beat → Beat
  | .switchToRealTime, .done, b => { b with wishes := b.wishes ++ [.realTime] }
  | .switchToSimulated, .done, b => { b with wishes := b.wishes ++ [.simulated] }
  | _, _, b => b

theorem hear_of_ne {call : Call} (hr : call ≠ .switchToRealTime) (hs : call ≠ .switchToSimulated)
    (a : Answer) (b : Beat) : hear call a b = b := by
  cases call with
  | switchToRealTime => exact absurd rfl hr
  | switchToSimulated => exact absurd rfl hs
  | _ => rfl

theorem hear_mode (call : Call) (a : Answer) (b : Beat) : (hear call a b).mode = b.mode := by
  unfold hear
  split <;> rfl

end Beat

/-- The scribe of the beats, which come latest first, adds to the latest. -/
def hearLatest (call : Call) (a : Answer) : List Beat → List Beat :=
  List.modifyHead (Beat.hear call a)

namespace RealTimeClock

variable {σ : Type} {base c d : RealTimeClock} {behave : Behaviour σ} {first : Mode}
  {beats past : List Beat}

/-! ## Inside a tick -/

/-- Every call of a callback leaves the pending wish to be what the requests make of it. -/
theorem Heard.Holds.serve {b : Beat} (h : Heard.Holds ⟨c, b.wishes⟩) {call : Call}
    (hp : call.isPublic = true) :
    Heard.Holds ⟨(serve c call).1, (Beat.hear call (serve c call).2 b).wishes⟩ := by
  by_cases ht : call.isTurning = true
  · cases call with
    | start =>
      obtain ⟨e, he⟩ := launch_begun h.begun
      simp only [RealTimeClock.serve, answer, RealTimeClock.start, he]
      exact h
    | stop =>
      have hstop := h.stop
      simp only [Heard.after, Move.on, stop_eq h.begun] at hstop
      simp only [RealTimeClock.serve, answer, stop_eq h.begun, settle]
      exact hstop
    | switchToRealTime =>
      have hreal := h.realTime
      simp only [Heard.after, Move.on] at hreal
      simp only [RealTimeClock.serve, answer, settle]
      cases hd : c.switchToRealTime <;> rw [hd] at hreal <;> exact hreal
    | switchToSimulated =>
      have hsim := h.simulated
      simp only [Heard.after, Move.on] at hsim
      simp only [RealTimeClock.serve, answer, settle]
      cases hd : c.switchToSimulated <;> rw [hd] at hsim <;> exact hsim
    | _ => cases ht
  · obtain ⟨_, _, _, _, he, -⟩ := serve_plain c hp (Bool.eq_false_iff.mpr ht)
    rw [he, Beat.hear_of_ne]
    · exact ⟨h.begun, h.pending⟩
    · intro hc
      rw [hc] at ht
      exact ht rfl
    · intro hc
      rw [hc] at ht
      exact ht rfl

/-- Inside a tick that began in stage `s`, the latest of the beats knows its requests. -/
structure Beating (s : Stage) (past : List Beat) (c : RealTimeClock) (beats : List Beat) :
    Prop where
  latest : ∃ b, beats = b :: past ∧ b.mode = s.mode ∧ Heard.Holds ⟨c, b.wishes⟩
  stage : c.pacing.stage = s ∨ c.pacing.stage = .stopped ∧ c.ticking = false

theorem beating_notes (s : Stage) (past : List Beat) :
    serve.Notes (fun call => call.isPublic = true) hearLatest (Beating s past) where
  budget c left beats h := by
    obtain ⟨b, hbeats, hmode, hholds⟩ := h.latest
    exact ⟨⟨b, hbeats, hmode, hholds.begun, hholds.pending⟩, h.stage⟩
  call c call beats hp h := by
    obtain ⟨⟨b, rfl, hmode, hholds⟩, hstage⟩ := h
    exact ⟨⟨_, rfl, (Beat.hear_mode _ _ _).trans hmode, hholds.serve hp⟩,
      ((serve_keeps_stage s).call c call hp ⟨hholds.begun, hstage⟩).2⟩
  aside phase c call r beats h := by
    have hhear : Beat.hear call r.2 = id := by
      funext b
      apply Beat.hear_of_ne <;> rintro rfl <;> cases h
    rw [hearLatest, hhear, List.modifyHead_id]
    rfl

/-! ## From tick to tick -/

/-- The pace of the next tick, after these ones. -/
def due (first : Mode) : List Beat → Mode
  | [] => first
  | b :: _ => b.next

/-- The beats of a run, latest first, each of which was due after those before it. -/
structure Rhythm (first : Mode) (beats : List Beat) : Prop where
  chain : beats.IsChain fun b' b => b'.mode = b.next
  opening : ∀ b ∈ beats.getLast?, b.mode = first
  alive : ∀ b ∈ beats, b.mode ≠ .stopped

theorem Rhythm.push (h : Rhythm first beats) {b : Beat} (hdue : b.mode = due first beats)
    (halive : b.mode ≠ .stopped) : Rhythm first (b :: beats) := by
  cases beats with
  | nil =>
    refine ⟨List.isChain_singleton b, fun b' hb' => ?_, fun b' hb' => ?_⟩
    · cases hb'
      exact hdue
    · rwa [List.mem_singleton.mp hb']
  | cons latest beats =>
    refine ⟨h.chain.cons_cons hdue, fun b' hb' => ?_, fun b' hb' => ?_⟩
    · rw [List.getLast?_cons_cons] at hb'
      exact h.opening b' hb'
    · rcases List.mem_cons.mp hb' with rfl | hb'
      · exact halive
      · exact h.alive b' hb'

/-- What the clock is about to do is what is due. -/
structure Paced (first : Mode) (c : RealTimeClock) (beats : List Beat) : Prop
    extends Rhythm first beats where
  due : c.pacing.stage.isRunning = true →
    (grantedStage c.pacing.pending c.pacing.stage).mode = due first beats
  leaving : c.pacing.stage.isRunning = true →
    c.pacing.pending = .none ∨
      grantedStage c.pacing.pending c.pacing.stage ≠ c.pacing.stage

/-- What is pending in a running clock is a wish to leave, or nothing. -/
theorem leaves_of_pendingFor (wishes : List Mode) {s : Stage} (h : s.isRunning = true) :
    pendingFor wishes s = .none ∨ grantedStage (pendingFor wishes s) s ≠ s := by
  cases s <;> cases h <;> unfold pendingFor <;> dsimp only <;> split <;> simp [grantedStage]

/-- What is granted at the end of a tick is what is due after it. -/
theorem granted_pendingFor {s : Stage} (h : s.isRunning = true) {b : Beat} (hb : b.mode = s.mode) :
    (grantedStage (pendingFor b.wishes s) s).mode = b.next := by
  unfold Beat.next
  rw [hb]
  cases s with
  | realTimeRunning =>
    by_cases hw : b.wishes.getLast? = some .simulated <;>
      simp [pendingFor, grantedStage, Stage.mode, hw]
  | simulatedRunning =>
    by_cases hw : .realTime ∈ b.wishes <;> simp [pendingFor, grantedStage, Stage.mode, hw]
  | _ => cases h

/-- The beats as a tick begins. -/
def beat (c : RealTimeClock) (st : σ × List Beat) : σ × List Beat := (st.1, ⟨c.mode, []⟩ :: st.2)

/-- The callbacks leave behind what is due after their tick. -/
theorem Beating.paced {s : Stage} (h : Beating s beats d past) (hrhythm : Rhythm first beats)
    (hs : s.isRunning = true) (hnow : s.mode = due first beats) {e : RealTimeClock}
    (he : e.pacing = d.pacing) : Paced first e past := by
  obtain ⟨⟨b, rfl, hmode, hholds⟩, hstage⟩ := h
  have halive : b.mode ≠ .stopped := by
    rw [hmode]
    cases s <;> simp [Stage.isRunning, Stage.mode] at hs ⊢
  refine ⟨hrhythm.push (hmode.trans hnow) halive, fun hr => ?_, fun hr => ?_⟩
  · rw [he] at hr ⊢
    have hstill : d.pacing.stage = s := by
      rcases hstage with hst | ⟨hst, -⟩
      · exact hst
      · rw [hst] at hr
        cases hr
    rw [hholds.pending hr]
    exact granted_pendingFor hr (hmode.trans (congrArg Stage.mode hstill.symm))
  · rw [he] at hr ⊢
    rw [hholds.pending hr]
    exact leaves_of_pendingFor b.wishes hr

/-- Whatever is asked in a tick, its requests and its pace say what is due after it. -/
theorem Paced.tick (hb : behave.Public) {thread : Thread} (hdue : Due base thread c)
    (h : Paced first c beats) (world : σ) :
    let r := (dispatch (behave.scribed hearLatest) thread (c, beat c (world, beats))).1
    Paced first r.1 r.2.2 := by
  have hrun : c.pacing.stage.isRunning = true := by
    rw [hdue.stage]
    cases thread <;> rfl
  have hpend := (h.leaving hrun).resolve_right fun hne => hne hdue.settled
  have hnow := h.due hrun
  rw [hdue.settled] at hnow
  have hfresh {d : RealTimeClock} (hd : d.pacing = c.pacing) :
      Beating c.pacing.stage beats d (⟨c.mode, []⟩ :: beats) := by
    refine ⟨⟨_, rfl, rfl, hd ▸ hdue.ready.steady.begun, fun _ => ?_⟩, .inl (by rw [hd])⟩
    rw [hd, hpend]
    unfold pendingFor
    cases c.pacing.stage <;> rfl
  intro r
  rcases ((beating_notes c.pacing.stage beats).behaviour hb).tick_cases thread
    (beat c (world, beats)) (fun lent hl => hfresh (lend_pacing hl).1) with
    ⟨e, -, he⟩ | ⟨lent, d, world', e, -, hd, he⟩ | ⟨lent, d, world', -, hd, he⟩ <;>
    simp only [r, dispatch, he]
  · exact (hfresh rfl).paced h.toRhythm hrun hnow rfl
  · exact hd.paced h.toRhythm hrun hnow rfl
  · exact hd.paced h.toRhythm hrun hnow d.advance_moved.pacing

/-- From tick to tick and from boundary to boundary, a run does what is due. -/
theorem paced_course (hb : behave.Public) (first : Mode) :
    Course base beat (behave.scribed hearLatest) fun st => Paced first st.1 st.2.2 where
  aside c pacing world hs hp h := by
    refine ⟨h.toRhythm, ?_, ?_⟩
    · dsimp only
      rw [hs, hp]
      exact h.due
    · dsimp only
      rw [hs, hp]
      exact h.leaving
  boundary c d world _ hd h := by
    obtain ⟨e, he, hg⟩ := applyPending_ok c
    rw [hd] at he
    cases he
    refine ⟨h.toRhythm, fun hr => ?_, fun _ => .inl hg.pending⟩
    rw [hg.stage, grantedStage_isRunning] at hr
    have hdue := h.due hr
    rw [hg.pending, hg.stage]
    exact hdue
  tick thread c world hdue h := h.tick hb hdue world.1

/-! ## Runs -/

/-- Ticks whose beats are written down. -/
def beaten (behave : Behaviour σ) : Tickers (σ × List Beat) :=
  marked beat (behave.scribed hearLatest)

/-- The ticks of a start, first to last. -/
def beatsOf (behave : Behaviour σ) (st : RealTimeClock × σ) : List Beat :=
  (start (beaten behave) (st.1, (st.2, []))).1.2.2.reverse

theorem beaten_unnoticed (behave : Behaviour σ) (thread : Thread) :
    Unnoticed (beaten behave thread) (dispatch behave thread) := fun c world beats =>
  Clock.tick_scribed serve hearLatest behave thread c world (⟨mode c, []⟩ :: beats)

/-- A run leaves to its listeners' world what its last step left. -/
theorem start_world {T : Tickers σ} {world : σ} (hl : c.launch = .ok d) :
    (start T (c, world)).1.2 = (steps T d.enoughSteps .choosing (d, world)).1.2 := by
  unfold start
  rw [hl]
  dsimp only
  unfold runLoop
  dsimp only
  rcases steps T d.enoughSteps .choosing (d, world) with ⟨⟨e, world'⟩, leg | _ | _ | _⟩ <;> rfl

/-- In simulated time a request for real time always wins. In real time it wins unless a request
for simulated time is the last of the tick. -/
theorem realTime_next {b : Beat} (halive : b.mode ≠ .stopped) (hw : .realTime ∈ b.wishes) :
    b.next = .realTime ↔ ¬ (b.mode = .realTime ∧ b.wishes.getLast? = some .simulated) := by
  unfold Beat.next
  cases hm : b.mode with
  | stopped => exact absurd hm halive
  | simulated => simp [hw]
  | realTime => by_cases hl : b.wishes.getLast? = some .simulated <;> simp [hl]

/-- The pace of every tick of a run is what the requests of the tick before it make of it. -/
theorem a_tick_heeds_the_requests_of_the_last {behave : Behaviour σ} (hb : behave.Public)
    {st : RealTimeClock × σ} (hr : Reached behave st) {launched : RealTimeClock}
    (hl : launch st.1 = .ok launched) :
    (∃ beats, start (beaten behave) (st.1, (st.2, [])) =
      withNotes (start (dispatch behave) st) beats) ∧
    (∀ b ∈ (beatsOf behave st).head?, b.mode = launched.mode) ∧
    ∀ b b' : Beat, [b, b'] <:+: beatsOf behave st →
      b'.mode = b.next ∧ (.realTime ∈ b.wishes → (b'.mode = .realTime ↔
        ¬ (b.mode = .realTime ∧ b.wishes.getLast? = some .simulated))) := by
  obtain ⟨c, world⟩ := st
  refine ⟨start_unnoticed (beaten_unnoticed behave) c world [], ?_⟩
  have hrest := hr.rested hb (launch_initial hl)
  have hrhythm : Rhythm launched.mode (start (beaten behave) (c, (world, []))).1.2.2 := by
    obtain ⟨hready, hpend⟩ := hrest.launched hl
    have hpaced : Paced launched.mode launched [] := by
      refine ⟨⟨List.isChain_nil, by simp, by simp⟩, fun _ => ?_, fun _ => .inl hpend⟩
      rw [hpend]
      rfl
    obtain ⟨-, hp⟩ := (paced_course hb launched.mode).steps (Behaviour.scribed_asks hb)
      hrest.tickLength launched.enoughSteps .choosing (world, []) ⟨hready, hpend, hpaced⟩
    rw [start_world hl]
    exact hp.toRhythm
  unfold beatsOf
  generalize (start (beaten behave) (c, (world, []))).1.2.2 = beats at hrhythm
  refine ⟨fun b h => hrhythm.opening b (by rwa [← List.head?_reverse]), fun b b' hin => ?_⟩
  have hpair : [b, b'].IsChain fun b b' => b'.mode = b.next := by
    have hchain := List.isChain_reverse.mpr hrhythm.chain
    obtain ⟨front, back, hall⟩ := hin
    rw [← hall] at hchain
    exact hchain.left_of_append.right_of_append
  have hnext : b'.mode = b.next := hpair.rel
  have hmem : b ∈ beats := List.mem_reverse.mp (hin.subset (by simp))
  refine ⟨hnext, fun hw => ?_⟩
  rw [hnext]
  exact realTime_next (hrhythm.alive b hmem) hw

/-- A listener that asks for real time and for simulated time in its first tick, and stops the
clock in its second. -/
def wavering : Behaviour Nat := fun v n =>
  match v.phase, n with
  | .tick, 0 =>
    .ask .switchToRealTime fun _ => .ask .switchToSimulated fun _ => .finish 1 .fine
  | .tick, n => .ask .stop fun _ => .finish n .fine
  | .after, n => .finish n .fine

theorem wavering_public : wavering.Public := by
  intro v n
  unfold wavering
  split
  · exact ⟨rfl, fun _ => ⟨rfl, fun _ => trivial⟩⟩
  · exact ⟨rfl, fun _ => trivial⟩
  · trivial

/-- Between the two ticks of a wavering run the pace is what the last request made of it. -/
theorem a_wavering_run_heeds_its_last_request :
    beatsOf wavering (plain, 0) = [⟨.realTime, [.realTime, .simulated]⟩, ⟨.simulated, []⟩] ∧
      Beat.next ⟨.realTime, [.realTime, .simulated]⟩ = .simulated := by
  have hbeats : beatsOf wavering (plain, 0) =
      [⟨.realTime, [.realTime, .simulated]⟩, ⟨.simulated, []⟩] := rfl
  obtain ⟨-, -, h⟩ :=
    a_tick_heeds_the_requests_of_the_last wavering_public (plain_reached wavering 0) rfl
  have hin : [⟨.realTime, [.realTime, .simulated]⟩, ⟨.simulated, []⟩] <:+:
      beatsOf wavering (plain, 0) := hbeats ▸ List.infix_refl _
  exact ⟨hbeats, (h _ _ hin).1.symm⟩

/-- So a request for real time does not always win over one for simulated time in the same tick. -/
theorem a_request_for_real_time_can_lose :
    ¬ ∀ b b' : Beat, [b, b'] <:+: beatsOf wavering (plain, 0) → .realTime ∈ b.wishes →
      b'.mode = .realTime := by
  intro h
  have hbeats : beatsOf wavering (plain, 0) =
      [⟨.realTime, [.realTime, .simulated]⟩, ⟨.simulated, []⟩] := rfl
  have hlost := h ⟨.realTime, [.realTime, .simulated]⟩ ⟨.simulated, []⟩
    (hbeats ▸ List.infix_refl _) (by simp)
  cases hlost

end RealTimeClock

end Metronome
