-- The deeds of listeners. Every listener keeps a book of its own: what it was
-- called with, what it took out of the budget, whom it put on the roster and
-- whom it took off, and how it ended. The books of the callbacks so far tell
-- what the next callback finds.
import Metronome.Proofs.Scribes

namespace Metronome

/-! ## Books -/

/-- A change of the roster that was granted. -/
inductive Roster.Change where
  | joined (x : Listener)
  | left (x : Listener)
  deriving DecidableEq, Repr

def Roster.Change.apply (names : List Listener) : Roster.Change → List Listener
  | .joined x => names ++ [x]
  | .left x => names.erase x

namespace Call

/-- What a call takes out of a budget of which so much is left. A refused call takes nothing. -/
def amount? (left : Int) : Call → Answer → Option Int
  | .consume n, .done => some n
  | .consumeAll, .done => some left
  | _, _ => none

/-- What a call changes in the roster. -/
def change? : Call → Answer → Option Roster.Change
  | .register x, .done => some (.joined x)
  | .unregister x, .flag true => some (.left x)
  | _, _ => none

end Call

/-- What several amounts are together. -/
def together : List Int → Int
  | [] => 0
  | n :: l => n + together l

@[simp] theorem together_nil : together [] = 0 := rfl

@[simp] theorem together_cons (n : Int) (l : List Int) : together (n :: l) = n + together l := rfl

@[simp] theorem together_append (l k : List Int) :
    together (l ++ k) = together l + together k := by
  induction l with
  | nil => simp
  | cons n l ih => simp [ih, Int.add_assoc]

theorem together_nonneg {l : List Int} (h : ∀ n ∈ l, 0 ≤ n) : 0 ≤ together l := by
  induction l with
  | nil => exact Int.le_refl 0
  | cons n l ih =>
    have hn := h n List.mem_cons_self
    have hl := ih fun m hm => h m (List.mem_cons_of_mem n hm)
    rw [together_cons]
    omega

/-- What one callback saw and did. -/
structure Deed where
  visit : Visit
  /-- The amounts that it took out of the budget, in order. -/
  taken : List Int := []
  changes : List Roster.Change := []
  verdict : Verdict := .fine
  deriving DecidableEq, Repr

namespace Deed

/-- What is left of the budget by the listener's own count. -/
def left (d : Deed) : Int := d.visit.budget.left - together d.taken

def enter (d : Deed) (call : Call) (a : Answer) : Deed :=
  { d with
    taken := d.taken ++ (call.amount? d.left a).toList
    changes := d.changes ++ (call.change? a).toList }

/-- What callbacks took together. -/
def spent (l : List Deed) : Int := together (l.flatMap (·.taken))

/-- What callbacks made of a roster. -/
def changed (names : List Listener) (l : List Deed) : List Listener :=
  (l.flatMap (·.changes)).foldl Roster.Change.apply names

@[simp] theorem spent_nil : spent [] = 0 := rfl

@[simp] theorem spent_cons (d : Deed) (l : List Deed) :
    spent (d :: l) = together d.taken + spent l := by
  simp [spent]

theorem changed_cons (names : List Listener) (d : Deed) (l : List Deed) :
    changed names (d :: l) = changed (d.changes.foldl Roster.Change.apply names) l := by
  simp [changed]

theorem changed_append (names : List Listener) (l l' : List Deed) :
    changed names (l ++ l') = changed (changed names l) l' := by
  simp [changed]

end Deed

/-! ## Listeners with books -/

variable {P σ : Type}

/-- The program itself. Every answer is entered into its deed, and the deed is put on record at
the end. -/
def Program.recorded (l : List Deed) : Deed → Program σ → Program (σ × List Deed)
  | d, .finish world verdict => .finish (world, l ++ [{ d with verdict }]) verdict
  | d, .ask call next => .ask call fun a => (next a).recorded l (d.enter call a)

/-- The same listeners in a world that has a record. -/
def Behaviour.recorded (behave : Behaviour σ) : Behaviour (σ × List Deed) :=
  fun v world => (behave v world.1).recorded world.2 { visit := v }

/-- Allowed calls never touch the budget, and they change the roster as they are answered. -/
structure Service.Minds (serve : Service P) (allowed : Call → Prop) : Prop where
  budget : ∀ c call, allowed call → (serve c call).1.budget = c.budget
  roster : ∀ c call, allowed call → (serve c call).1.roster.names =
    (call.change? (serve c call).2).toList.foldl Roster.Change.apply c.roster.names

/-- A call that is none on the budget takes nothing out of it. -/
theorem Program.amount?_of_onBudget {phase : Phase} {c : Clock P} {call : Call}
    (h : onBudget phase c call = none) (left : Int) (a : Answer) : call.amount? left a = none := by
  cases call with
  | consume n =>
    cases phase <;> simp only [onBudget] at h
    · split at h <;> cases h
    · cases h
  | consumeAll => cases phase <;> cases h
  | _ => rfl

/-! ## One callback -/

/-- The clock stands as this deed says, which found these listeners on the roster. -/
structure Deed.Fits (names : List Listener) (d : Deed) (c : Clock P) : Prop where
  budget : c.budget = { d.visit.budget with left := d.left }
  names : c.roster.names = d.changes.foldl Roster.Change.apply names
  left : 0 ≤ d.left
  taken : ∀ n ∈ d.taken, 0 ≤ n
  after : d.visit.phase = .after → d.taken = []

namespace Deed.Fits

variable {serve : Service P} {allowed : Call → Prop} {names : List Listener} {d : Deed}
  {c : Clock P}

/-- An amount that was granted is entered. -/
theorem take (h : d.Fits names c) (hp : d.visit.phase = .tick) {n : Int} (h0 : 0 ≤ n)
    (hn : n ≤ d.left) {call : Call} {a : Answer} (hamount : call.amount? d.left a = some n)
    (hchange : call.change? a = none) :
    (d.enter call a).Fits names { c with budget := { c.budget with left := d.left - n } } := by
  have hleft : (d.enter call a).left = d.left - n := by
    simp only [Deed.left, Deed.enter] at hamount ⊢
    rw [hamount]
    simp only [Option.toList_some, together_append, together_cons, together_nil]
    omega
  refine ⟨?_, ?_, ?_, ?_, ?_⟩
  · rw [hleft, h.budget]
    rfl
  · simp only [Deed.enter, hchange, Option.toList_none, List.append_nil]
    exact h.names
  · omega
  · intro m hm
    simp only [Deed.enter, hamount, Option.toList_some] at hm
    rcases List.mem_append.mp hm with hm | hm
    · exact h.taken m hm
    · rwa [List.mem_singleton.mp hm]
  · intro ha
    rw [show (d.enter call a).visit = d.visit from rfl, hp] at ha
    cases ha

/-- A call that was granted nothing leaves the books as they are. -/
theorem idle (h : d.Fits names c) {call : Call} {a : Answer}
    (hamount : call.amount? d.left a = none) (hchange : call.change? a = none) :
    (d.enter call a).Fits names c := by
  have hsame : d.enter call a = d := by
    simp only [Deed.enter, hamount, hchange, Option.toList_none, List.append_nil]
  rwa [hsame]

/-- A call on the budget is entered as it is answered. -/
theorem onBudget (h : d.Fits names c) {call : Call} {r : Clock P × Answer}
    (hr : Program.onBudget d.visit.phase c call = some r) : (d.enter call r.2).Fits names r.1 := by
  have hleft : c.budget.left = d.left := by rw [h.budget]
  cases hp : d.visit.phase with
  | after =>
    rw [hp] at hr
    cases call <;> simp only [Program.onBudget, reduceCtorEq, Option.some.injEq] at hr <;>
      subst hr <;> exact h.idle rfl rfl
  | tick =>
    rw [hp] at hr
    cases call <;> simp only [Program.onBudget, reduceCtorEq, Option.some.injEq] at hr
    case consume n =>
      by_cases hn : n < 0 ∨ c.budget.left < n
      · simp only [Budget.consume, if_pos hn, Option.some.injEq] at hr
        subst hr
        exact h.idle rfl rfl
      · simp only [Budget.consume, if_neg hn, Option.some.injEq] at hr
        subst hr
        rw [hleft] at hn ⊢
        exact h.take hp (by omega) (by omega) rfl rfl
    case consumeAll =>
      subst hr
      have hzero : c.budget.consumeAll = { c.budget with left := d.left - d.left } := by
        rw [Int.sub_self]
        rfl
      rw [hzero]
      exact h.take hp h.left (Int.le_refl _) rfl rfl
    case budget =>
      subst hr
      exact h.idle rfl rfl

theorem reply (h : d.Fits names c) (hm : serve.Minds allowed) {call : Call} (ha : allowed call) :
    (d.enter call (Program.reply serve d.visit.phase c call).2).Fits names
      (Program.reply serve d.visit.phase c call).1 := by
  unfold Program.reply
  cases hb : Program.onBudget d.visit.phase c call with
  | some r => exact h.onBudget hb
  | none =>
    have htaken : (d.enter call (serve c call).2).taken = d.taken := by
      simp [Deed.enter, Program.amount?_of_onBudget hb]
    have hleft : (d.enter call (serve c call).2).left = d.left := by
      unfold Deed.left
      rw [htaken]
      rfl
    refine ⟨?_, ?_, ?_, ?_, ?_⟩ <;> simp only [Option.getD_none]
    · rw [hm.budget c call ha, h.budget, hleft]
      rfl
    · rw [hm.roster c call ha, h.names, ← List.foldl_append]
      rfl
    · rw [hleft]
      exact h.left
    · rw [htaken]
      exact h.taken
    · rw [htaken]
      exact h.after

end Deed.Fits

/-- A callback with a book is the same callback, and its deed says how it leaves the clock. -/
theorem Program.run_recorded {serve : Service P} {allowed : Call → Prop} (hm : serve.Minds allowed)
    {names : List Listener} (l : List Deed) {p : Program σ} (ha : p.Asks allowed) {d : Deed}
    {c : Clock P} (h : d.Fits names c) :
    ∃ d', run serve d.visit.phase (p.recorded l d) c =
        withNotes (run serve d.visit.phase p c) (l ++ [d']) ∧
      d'.visit = d.visit ∧ d'.verdict = (run serve d.visit.phase p c).2 ∧
      d'.Fits names (run serve d.visit.phase p c).1.1 := by
  induction p generalizing d c with
  | finish world verdict =>
    exact ⟨{ d with verdict }, rfl, rfl, rfl, h.budget, h.names, h.left, h.taken, h.after⟩
  | ask call next ih => exact ih _ (ha.2 _) (h.reply hm ha.1)

/-! ## A round -/

/-- The listeners were called in this order, up to the first that failed. -/
structure Deed.InTurn (phase : Phase) (names : List Listener) (l : List Deed) : Prop where
  order : l.map (·.visit.listener) <+: names
  phase : ∀ d ∈ l, d.visit.phase = phase
  fine : ∀ d ∈ l.dropLast, d.verdict = .fine
  all : (∀ d ∈ l, d.verdict = .fine) → l.map (·.visit.listener) = names

/-- Callbacks did these deeds on the way from the clock `c` to the clock `e`. -/
structure Deed.Leads (phase : Phase) (thread : Thread) (c : Clock P) (l : List Deed)
    (e : Clock P) : Prop where
  visit : ∀ before d after, l = before ++ d :: after → d.visit.thread = thread ∧
    d.visit.budget = { c.budget with left := c.budget.left - spent before } ∧
    0 ≤ d.visit.budget.left
  taken : ∀ d ∈ l, (∀ n ∈ d.taken, 0 ≤ n) ∧ (phase = .after → d.taken = [])
  budget : e.budget = { c.budget with left := c.budget.left - spent l }
  left : 0 ≤ e.budget.left
  names : e.roster.names = changed c.roster.names l

namespace Deed

variable {phase : Phase} {thread : Thread} {names : List Listener} {c e : Clock P} {l : List Deed}
  {d : Deed}

theorem InTurn.nil (phase : Phase) : InTurn phase [] [] :=
  ⟨List.prefix_refl _, by simp, by simp, fun _ => rfl⟩

/-- A listener that fails is the last one. -/
theorem InTurn.last (hp : d.visit.phase = phase) (hv : d.verdict ≠ .fine) (xs : List Listener) :
    InTurn phase (d.visit.listener :: xs) [d] where
  order := ⟨xs, rfl⟩
  phase d' hd' := by rw [List.mem_singleton.mp hd', hp]
  fine d' hd' := by cases hd'
  all h := absurd (h d (by simp)) hv

theorem InTurn.cons (h : InTurn phase names l) (hp : d.visit.phase = phase)
    (hv : d.verdict = .fine) : InTurn phase (d.visit.listener :: names) (d :: l) where
  order := by
    rw [List.map_cons]
    exact List.prefix_cons_inj _ |>.mpr h.order
  phase d' hd' := by
    rcases List.mem_cons.mp hd' with rfl | hd'
    · exact hp
    · exact h.phase d' hd'
  fine d' hd' := by
    cases l with
    | nil => cases hd'
    | cons y l =>
      rw [List.dropLast_cons_of_ne_nil (by simp)] at hd'
      rcases List.mem_cons.mp hd' with rfl | hd'
      · exact hv
      · exact h.fine d' hd'
  all hall := by
    rw [List.map_cons, h.all fun d' hd' => hall d' (List.mem_cons_of_mem _ hd')]

theorem Leads.nil (phase : Phase) (thread : Thread) (h : 0 ≤ c.budget.left) :
    Leads phase thread c [] c := by
  refine ⟨fun before d after hl => ?_, by simp, by simp, h, rfl⟩
  cases before <;> cases hl

/-- One deed more, at the beginning. -/
theorem Leads.cons {b : Clock P} (hb : d.visit.budget = c.budget) (h0 : 0 ≤ c.budget.left)
    (hp : d.visit.phase = phase) (ht : d.visit.thread = thread) (hd : d.Fits c.roster.names b)
    (h : Leads phase thread b l e) : Leads phase thread c (d :: l) e := by
  have hbudget : b.budget = { c.budget with left := c.budget.left - together d.taken } := by
    rw [hd.budget, Deed.left, hb]
  have hleft : b.budget.left = c.budget.left - together d.taken := by rw [hbudget]
  refine ⟨?_, ?_, ?_, h.left, ?_⟩
  · intro before d' after hl
    cases before with
    | nil =>
      cases hl
      exact ⟨ht, by rw [hb, spent_nil, Int.sub_zero], hb ▸ h0⟩
    | cons y before =>
      cases hl
      obtain ⟨hthread, hbud, hnonneg⟩ := h.visit before d' after rfl
      refine ⟨hthread, ?_, hnonneg⟩
      rw [hbud, hleft, hbudget, spent_cons, Int.sub_sub]
  · intro d' hd'
    rcases List.mem_cons.mp hd' with rfl | hd'
    · exact ⟨hd.taken, fun ha => hd.after (hp.trans ha)⟩
    · exact h.taken d' hd'
  · rw [h.budget, hleft, hbudget, spent_cons, Int.sub_sub]
  · rw [h.names, hd.names, changed_cons]

end Deed

namespace Clock

variable {serve : Service P} {allowed : Call → Prop}

/-- A round with books is the same round. -/
theorem visitAll_recorded (hm : serve.Minds allowed) {behave : Behaviour σ}
    (hb : behave.Asks allowed) (phase : Phase) (thread : Thread) (start : Int)
    (names : List Listener) (l : List Deed) {c : Clock P} (world : σ) (h0 : 0 ≤ c.budget.left) :
    ∃ deeds, visitAll serve behave.recorded phase thread start names (c, (world, l)) =
        withNotes (visitAll serve behave phase thread start names (c, world)) (l ++ deeds) ∧
      Deed.InTurn phase names deeds ∧
      (visitAll serve behave phase thread start names (c, world)).2 =
        deeds.findSome? (fun d => d.verdict.error? start) ∧
      Deed.Leads phase thread c deeds
        (visitAll serve behave phase thread start names (c, world)).1.1 := by
  induction names generalizing c world l with
  | nil => exact ⟨[], by simp [visitAll, withNotes], .nil phase, rfl, .nil phase thread h0⟩
  | cons x names ih =>
    let v : Visit := ⟨x, phase, c.budget, thread⟩
    have hfits : Deed.Fits c.roster.names { visit := v } c :=
      ⟨by simp [v, Deed.left], rfl, by simpa [v, Deed.left] using h0, by simp, fun _ => rfl⟩
    obtain ⟨d, hrun, hvisit, hverdict, hd⟩ := Program.run_recorded hm l (hb v world) hfits
    have hbehave : behave.recorded ⟨x, phase, c.budget, thread⟩ (world, l) =
        (behave v world).recorded l { visit := v } := rfl
    rcases hr : Program.run serve phase (behave v world) c with ⟨⟨b, world'⟩, verdict⟩
    simp only [hr, v] at hrun hverdict hd
    have hphase : d.visit.phase = phase := by rw [hvisit]
    have hthread : d.visit.thread = thread := by rw [hvisit]
    have hbudget : d.visit.budget = c.budget := by rw [hvisit]
    have hlistener : d.visit.listener = x := by rw [hvisit]
    have hcons {deeds : List Deed} {e : Clock P} (h : Deed.Leads phase thread b deeds e) :
        Deed.Leads phase thread c (d :: deeds) e := h.cons hbudget h0 hphase hthread hd
    have hleft : 0 ≤ b.budget.left := by
      rw [hd.budget]
      exact hd.left
    cases he : verdict.error? start with
    | some e =>
      refine ⟨[d], ?_, hlistener ▸ .last hphase ?_ names, ?_, ?_⟩
      · simp only [visitAll, hbehave, hrun, hr, withNotes, he, v]
      · intro hfine
        rw [← hverdict, hfine] at he
        cases he
      · simp only [visitAll, hr, he, v, List.findSome?_cons, hverdict]
      · simp only [visitAll, hr, he, v]
        exact hcons (.nil phase thread hleft)
    | none =>
      have hfine : verdict = .fine := by cases verdict <;> first | rfl | cases he
      obtain ⟨deeds, hdeeds, hturn, herror, hleads⟩ := ih (l ++ [d]) world' hleft
      refine ⟨d :: deeds, ?_, hlistener ▸ hturn.cons hphase (hverdict.trans hfine), ?_, ?_⟩
      · simp only [visitAll, hbehave, hrun, hr, withNotes, he, v]
        rw [hdeeds, List.append_assoc]
        rfl
      · simp only [visitAll, hr, he, v, List.findSome?_cons, hverdict]
        exact herror
      · simp only [visitAll, hr, he, v]
        exact hcons hleads

end Clock

end Metronome
