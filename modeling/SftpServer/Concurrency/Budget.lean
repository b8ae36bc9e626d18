import Mathlib.Algebra.BigOperators.Fin
import SftpServer.Concurrency.ReplyOrder
import SftpServer.Sftp.Options

/-! What sessions hold of a server. Every request has a slot of its session and a token of the
server from before its packet is read until its reply is written. The reading goroutine gives
each slot it takes to exactly one of `Abandon`, `Go` and `Barrier`, so none is lost however a
session ends, and one that waits for its client holds nothing.
-/

namespace SftpServer.Wire

open SftpServer.Foundations

/-- A buffer grows no further than the limit on packets. -/
theorem readPacket_length_next {σ : Type} (source : Source σ) (buf : Bytes) {limit : Nat}
    (positive : 0 < limit) (s : σ)
    : (readPacket source buf limit s).next.length ≤ max buf.length limit := by
  have bound : ¬ (limit : Int) ≤ 0 := by omega
  simp only [readPacket, if_neg bound, Int.toNat_natCast]
  split
  · exact Nat.le_max_left _ _
  generalize BigEndian.decode (source.readFull 4 s).got = n
  generalize (source.readFull 4 s).later = s
  have few : (source.readFull n s).got.length ≤ n := by
    simp only [Source.readFull]
    split_ifs <;> exact (source.readLoop_spec n s).2.1
  split_ifs with empty large short
  · exact Nat.le_max_left _ _
  · exact Nat.le_max_left _ _
  · split <;> simp only [List.length_append, List.length_drop, List.length_replicate] <;> omega
  · split <;> simp only [List.length_append, List.length_drop] <;> omega

end SftpServer.Wire

namespace SftpServer.Sftp

open SftpServer.Foundations
open SftpServer.Wire

theorem Server.packetLimit_pos (srv : Server) : 0 < srv.packetLimit := by
  unfold Server.packetLimit
  split
  · decide
  · rename_i positive
    exact toNat_pos positive

/-- The buffers of a slot are those of a packet in and a reply out. -/
structure Slot.Bounded (srv : Server) (slot : Slot) : Prop where
  inBuf : slot.inBuf.length ≤ srv.packetLimit
  outBuf : slot.outBuf.length ≤ 4 + maxPacket

theorem Slot.Bounded.framed {srv : Server} {slot : Slot} (bounded : slot.Bounded srv)
    (reply : Message)
    : ({ slot with outBuf := (frame reply slot.outBuf).2 } : Slot).Bounded srv := by
  refine ⟨bounded.inBuf, ?_⟩
  simp only [frame, send, writePacket]
  split
  · exact bounded.outBuf
  · simp only [List.length_append, BigEndian.length_encode, List.length_cons]
    omega

theorem Slot.Bounded.grown {srv : Server} {slot : Slot} (bounded : slot.Bounded srv)
    {buf : Bytes} (within : buf.length ≤ max slot.inBuf.length srv.packetLimit)
    : ({ slot with inBuf := buf } : Slot).Bounded srv :=
  ⟨within.trans (max_le bounded.inBuf le_rfl), bounded.outBuf⟩

/-- The slot that the reading goroutine has, on its own or in `Barrier`. -/
def Stage.slots : Stage → List Slot
  | .reading slot | .took slot _ | .scheduling slot _ | .answering slot _ _ _ => [slot]
  | .negotiating | .checking | .peeking | .beginning | .waiting _ | .closing _ _
  | .returned _ => []

/-- While a packet arrives. -/
def Stage.arriving : Stage → Bool
  | .reading _ | .took _ _ => true
  | .negotiating | .checking | .peeking | .beginning | .scheduling _ _ | .answering _ _ _ _
  | .waiting _ | .closing _ _ | .returned _ => false

namespace Loop

/-- The slots in use, of the reading goroutine and of the jobs in flight. -/
def used (l : Loop) : List Slot := l.stage.slots ++ l.running.map Gone.slot

/-- No slot is lost, none outgrows its packets, and the timer is set only while a packet
arrives.
-/
structure Keeps (srv : Server) (timed : Bool) (n : Nat) (l : Loop) : Prop where
  count : l.free.length + l.used.length = n
  bounded : ∀ slot ∈ l.free ++ l.used, slot.Bounded srv
  arriving : l.armed = true → l.stage.arriving = true
  untimed : timed = false → l.armed = false ∧ l.expired = false ∧ l.interrupted = false

variable {srv : Server} {timed : Bool} {n : Nat} {l later : Loop} {trace : List Observation}

/-- A slot that is taken is given back, or to a job. -/
theorem Step.count (step : Step srv timed l trace later)
    : later.free.length + later.used.length = l.free.length + l.used.length := by
  cases step with
  | begun stage some_free =>
      simp only [used, stage, Stage.slots, some_free, List.length_append, List.length_cons,
        List.length_nil]
      omega
  | abandoned stage =>
      simp only [used, stage, Stage.slots, List.length_append, List.length_cons, List.length_nil]
      omega
  | went stage prepared =>
      simp only [used, stage, Stage.slots, List.length_append, List.length_cons, List.length_nil,
        List.map_append, List.map_cons, List.map_nil]
      omega
  | early stage alone prepared delivered =>
      simp only [used, stage, Stage.slots, List.length_append, List.length_cons, List.length_nil]
      omega
  | answered stage delivered =>
      simp only [used, stage, Stage.slots, List.length_append, List.length_cons, List.length_nil]
      omega
  | landed first returns delivered =>
      simp only [used, first, List.length_append, List.length_cons, List.map_cons]
      omega
  | flew answer inFlight asks => simp [used, inFlight]
  | expired armed => rfl
  | gaveUp expired => rfl
  | _ => simp [used, Stage.slots, *]

/-- No buffer grows beyond its packets. -/
theorem Step.bounded (step : Step srv timed l trace later)
    (bounded : ∀ slot ∈ l.free ++ l.used, slot.Bounded srv)
    : ∀ slot ∈ later.free ++ later.used, slot.Bounded srv := by
  cases step with
  | begun stage some_free =>
      simp only [used, stage, Stage.slots, some_free, List.forall_mem_append,
        List.forall_mem_cons] at bounded ⊢
      tauto
  | @read slot stage =>
      simp only [used, stage, Stage.slots, List.forall_mem_append,
        List.forall_mem_cons] at bounded ⊢
      refine ⟨bounded.1, ⟨bounded.2.1.1.grown ?_, bounded.2.1.2⟩, bounded.2.2⟩
      exact readPacket_length_next _ _ srv.packetLimit_pos _
  | cut stage interrupted within =>
      simp only [used, stage, Stage.slots, List.forall_mem_append,
        List.forall_mem_cons] at bounded ⊢
      exact ⟨bounded.1, ⟨bounded.2.1.1.grown within, bounded.2.1.2⟩, bounded.2.2⟩
  | abandoned stage =>
      simp only [used, stage, Stage.slots, List.forall_mem_append,
        List.forall_mem_cons] at bounded ⊢
      tauto
  | went stage prepared =>
      simp only [used, stage, Stage.slots, List.map_append, List.map_cons, List.map_nil,
        List.forall_mem_append, List.forall_mem_cons] at bounded ⊢
      tauto
  | @early slot p reply link stage alone prepared delivered =>
      simp only [used, stage, Stage.slots, List.forall_mem_append,
        List.forall_mem_cons] at bounded ⊢
      exact ⟨⟨bounded.2.1.1.framed reply, bounded.1⟩, bounded.2.1.2, bounded.2.2⟩
  | @answered slot typ payload reply handles link stage delivered =>
      simp only [used, stage, Stage.slots, List.forall_mem_append,
        List.forall_mem_cons] at bounded ⊢
      exact ⟨⟨bounded.2.1.1.framed reply, bounded.1⟩, bounded.2.1.2, bounded.2.2⟩
  | @landed gone rest reply link first returns delivered =>
      simp only [used, first, List.map_cons, List.forall_mem_append,
        List.forall_mem_cons] at bounded ⊢
      exact ⟨⟨bounded.2.2.1.framed reply, bounded.1⟩, bounded.2.1, bounded.2.2.2⟩
  | flew answer inFlight asks => simpa [used, inFlight] using bounded
  | expired armed => exact bounded
  | gaveUp expired => exact bounded
  | _ => simp_all [used, Stage.slots]

/-- The timer is set when a slot is taken, and stopped before the slot is given on. -/
theorem Step.arriving (step : Step srv timed l trace later)
    (arriving : l.armed = true → l.stage.arriving = true)
    : later.armed = true → later.stage.arriving = true := by
  cases step <;> simp_all [Stage.arriving]

theorem Step.untimed (step : Step srv false l trace later)
    (untimed : l.armed = false ∧ l.expired = false ∧ l.interrupted = false)
    : later.armed = false ∧ later.expired = false ∧ later.interrupted = false := by
  cases step <;> simp_all

theorem Step.keeps (step : Step srv timed l trace later) (keeps : l.Keeps srv timed n)
    : later.Keeps srv timed n where
  count := step.count.trans keeps.count
  bounded := step.bounded keeps.bounded
  arriving := step.arriving keeps.arriving
  untimed := by
    rintro rfl
    exact step.untimed (keeps.untimed rfl)

theorem keeps_initial (srv : Server) (timed : Bool) (n : Nat) (input : Buffered)
    : (initial n input).Keeps srv timed n where
  count := by simp [initial, used, Stage.slots]
  bounded slot member := by
    have fresh : slot ∈ List.replicate n {} := by simpa [initial, used, Stage.slots] using member
    rw [List.eq_of_mem_replicate fresh]
    exact ⟨Nat.zero_le _, Nat.zero_le _⟩
  arriving := nofun
  untimed _ := ⟨rfl, rfl, rfl⟩

/-- A step takes one slot at most. -/
theorem Step.used_le (step : Step srv timed l trace later)
    : later.used.length ≤ l.used.length + 1 := by
  cases step <;> simp_all [used, Stage.slots] <;> omega

end Loop

-----------------------------------------------------------------------------------------
-- The sessions of a server
-----------------------------------------------------------------------------------------

/-- The sessions of a server, each with its own stream. -/
abbrev Sessions (ι : Type) := ι → Loop

namespace Sessions

variable {ι : Type} [Fintype ι] [DecidableEq ι]

/-- The tokens of the pool that are held: one for each slot in use. -/
def held (sessions : Sessions ι) : Nat := ∑ i, (sessions i).used.length

/-- A step of one session. A slot is taken only with a token. -/
inductive Step (s : Export) : Sessions ι → Sessions ι → Prop where
  | mk {sessions : Sessions ι} {i : ι} {later : Loop} {trace : List Observation}
    (step : Loop.Step s.server s.timed (sessions i) trace later)
    (token : (sessions i).used.length < later.used.length → sessions.held < s.tokens)
    : Step s sessions (Function.update sessions i later)

/-- Any number of steps of any sessions, on any streams. -/
inductive Reached (s : Export) : Sessions ι → Prop where
  | start (inputs : ι → Buffered) : Reached s fun i => Loop.initial s.slots (inputs i)
  | step {sessions later : Sessions ι} (reached : Reached s sessions)
    (step : Step s sessions later)
    : Reached s later

theorem held_update (sessions : Sessions ι) (i : ι) (later : Loop)
    : held (Function.update sessions i later) + (sessions i).used.length
      = held sessions + later.used.length := by
  have changed : (fun j => (Function.update sessions i later j).used.length)
      = Function.update (fun j => (sessions j).used.length) i later.used.length :=
    funext fun j => Function.apply_update (fun _ (l : Loop) => l.used.length) sessions i later j
  simp only [held, changed, Finset.sum_update_of_mem (Finset.mem_univ i)]
  rw [← Finset.add_sum_erase _ _ (Finset.mem_univ i), Finset.sdiff_singleton_eq_erase]
  omega

variable {s : Export} {sessions later : Sessions ι}

theorem Step.held_le (step : Step s sessions later) (within : held sessions ≤ s.tokens)
    : held later ≤ s.tokens := by
  cases step with
  | @mk i later trace step token =>
      have total := held_update sessions i later
      have few := step.used_le
      by_cases takes : (sessions i).used.length < later.used.length
      · have free := token takes
        omega
      · omega

/-- By induction on the steps. -/
theorem Reached.keeps (reached : Reached s sessions)
    : held sessions ≤ s.tokens
      ∧ ∀ i, (sessions i).Keeps s.server s.timed s.slots ∧ (sessions i).Quiet := by
  induction reached with
  | start inputs =>
      refine ⟨?_, fun i => ⟨Loop.keeps_initial _ _ _ _, Loop.quiet_initial _ _⟩⟩
      simp [held, Loop.used, Loop.initial, Stage.slots]
  | step _ step ih =>
      refine ⟨step.held_le ih.1, ?_⟩
      cases step with
      | @mk i later trace step token =>
          intro j
          by_cases same : j = i
          · subst same
            rw [Function.update_self]
            exact ⟨step.keeps (ih.2 j).1, step.quiet (ih.2 j).2⟩
          · rw [Function.update_of_ne same]
            exact ih.2 j

end Sessions

/-- A server made by `New` with any options, and any number of its sessions, each at any point.
All requests in progress hold no more than the server's tokens, of which there is one at least.
Each session has its slots, 1024 at most, in use or free, and the buffers of each hold a packet
in and a reply out; all are free while the session waits for a packet with nothing in flight,
and once it has returned, however it ended. Its timer is set only while a packet arrives, and no
stream is given up if there is no limit on how long one takes.
-/
theorem sessions_keep_budget {fsys : Option Capabilities} {now : UInt32} {opts : List Setting}
    {s : Export} (made : new fsys now opts = some s) {ι : Type} [Fintype ι] [DecidableEq ι]
    {sessions : Sessions ι} (reached : Sessions.Reached s sessions)
    : sessions.held ≤ s.tokens ∧ 1 ≤ s.tokens ∧ 1 ≤ s.slots ∧ s.slots ≤ 1024
      ∧ ∀ i,
          (sessions i).free.length + (sessions i).used.length = s.slots
          ∧ (∀ slot ∈ (sessions i).free ++ (sessions i).used, slot.Bounded s.server)
          ∧ ((sessions i).stage = .peeking → (sessions i).running = []
            → (sessions i).free.length = s.slots)
          ∧ (∀ result, (sessions i).stage = .returned result
            → (sessions i).free.length = s.slots)
          ∧ ((sessions i).armed = true → (sessions i).stage.arriving = true)
          ∧ (s.timed = false → (sessions i).interrupted = false) := by
  have settled := new_settled made
  obtain ⟨within, each⟩ := reached.keeps
  refine ⟨within, settled.tokens, settled.slots.1, settled.slots.2, fun i => ?_⟩
  obtain ⟨keeps, quiet⟩ := each i
  refine ⟨keeps.count, keeps.bounded, fun peeking alone => ?_, fun result returned => ?_,
    keeps.arriving, fun untimed => (keeps.untimed untimed).2.2⟩
  · simpa [Loop.used, peeking, alone, Stage.slots] using keeps.count
  · have alone := quiet (by rw [returned]; rfl)
    simpa [Loop.used, returned, alone, Stage.slots] using keeps.count

/-- One session alone always finds a token where there are no fewer tokens than slots. -/
theorem Sessions.Reached.alone {s : Export} (enough : s.slots ≤ s.tokens) {input : Buffered}
    {trace : List Observation} {l : Loop}
    (run : Loop.Run s.server s.timed (Loop.initial s.slots input) trace l)
    : Sessions.Reached s fun _ : Unit => l := by
  generalize start : Loop.initial s.slots input = first at run
  induction run with
  | refl =>
      subst start
      exact .start fun _ => input
  | @step middle last early late run step ih =>
      have count := (step.keeps (ih.keeps.2 ()).1).count
      have moved := Sessions.Reached.step ih (@Sessions.Step.mk _ _ _ s _ () last late step
        fun takes => by
          simp only [Sessions.held, Finset.univ_unique, Finset.sum_singleton]
          omega)
      have same : Function.update (fun _ : Unit => middle) () last = fun _ => last :=
        funext fun _ => rfl
      rwa [same] at moved

/-- A session that was given one slot has it back. -/
theorem sessions_keep_budget_refusing
    : ∃ s, new (some ⟨false, false, false, false⟩) 0 [.withMaxInFlight 1] = some s
      ∧ s.slots = 1
      ∧ ∃ sessions : Sessions Unit,
          Sessions.Reached s sessions
          ∧ (sessions ()).stage = .returned none
          ∧ (sessions ()).free.length = 1 := by
  obtain ⟨s, made, server, timed, slots, tokens⟩ :
      ∃ s, new (some ⟨false, false, false, false⟩) 0 [.withMaxInFlight 1] = some s
        ∧ s.server = bareServer ∧ s.timed = true ∧ s.slots = 1 ∧ 1 ≤ s.tokens :=
    ⟨_, rfl, rfl, by decide, by decide, by decide⟩
  obtain ⟨trace, l, run, returned, _⟩ := Loop.Run.refusing
  rw [← server, ← timed, ← slots] at run
  have reached := Sessions.Reached.alone (slots ▸ tokens) run
  obtain ⟨_, _, _, _, each⟩ := sessions_keep_budget made reached
  exact ⟨s, made, slots, _, reached, returned, ((each ()).2.2.2.1 none returned).trans slots⟩

end SftpServer.Sftp
