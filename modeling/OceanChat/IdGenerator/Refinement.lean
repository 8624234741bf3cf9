import OceanChat.Core.SegmentOrder
import OceanChat.IdGenerator.Service

/-!
# The generator refines a segment pool

For each key, the calls, the hash and the sequence document together behave as
one segment pool: a call that waits for `SYNC_SEGMENT_LUA` holds a segment, the
hash is the register, and every script that answers a number draws it.  Each
step of the generator is matched by the pool actions it emits.
-/

namespace OceanChat.IdGenerator

open Runs SegmentPool

/-- What a call for this key is waiting for. -/
def State.phaseOf (state : State) (key : String) (id : CallId) : Option Phase :=
  (state.calls id).bind fun call =>
    if call.key = key then some call.phase else none

/-- The upper limit of the segment a call has allocated but not offered. -/
def Phase.pendingMax : Phase → Option ℕ
  | .sync _ _ max => some max
  | _ => none

/-- The number a call returns, or will return after releasing its lock. -/
def Phase.issuedSeq : Phase → Option String
  | .release _ (.returned seq) => some seq
  | .finished (.returned seq) => some seq
  | _ => none

/-- The phase neither holds a segment nor carries a number. -/
def Phase.Quiet (phase : Phase) : Prop :=
  phase.pendingMax = none ∧ phase.issuedSeq = none

/-- The phases that wait for `GENERATE_SEQ_LUA`. -/
def Phase.draws : Phase → Bool
  | .fastPath => true
  | .retry _ => true
  | .discarded _ _ => true
  | _ => false

theorem Phase.pendingMax_of_draws {phase : Phase}
    (hdraws : phase.draws = true) : phase.pendingMax = none := by
  cases phase <;> first | rfl | cases hdraws

theorem Phase.issuedSeq_of_draws {phase : Phase}
    (hdraws : phase.draws = true) : phase.issuedSeq = none := by
  cases phase <;> first | rfl | cases hdraws

/-! ## Emitted pool actions -/

/-- `GENERATE_SEQ_LUA` draws when it answers a number. -/
def emitDraw (state : State) (key : String) (id : CallId) (reply : Reply) :
    List (Action CallId) :=
  match generateSeqLua (state.hashes (redisKey key)) with
  | some (_, some _) => if reply.took then [.draw id] else []
  | _ => []

def emitCommand (state : State) (key : String) (id : CallId) (reply : Reply) :
    Phase → List (Action CallId)
  | .fastPath => emitDraw state key id reply
  | .retry _ => emitDraw state key id reply
  | .discarded _ _ => emitDraw state key id reply
  | .allocate _ _ =>
      if (allocateSegment state key).isSome ∧ reply.took then
        if reply = .ok then [.allocate id] else [.allocate id, .drop id]
      else []
  | .sync _ _ _ => if reply.took then [.offer id] else [.drop id]
  | _ => []

def emit (key : String) (state : State) : Event → List (Action CallId)
  | .command id reply =>
      ((state.phaseOf key id).map (emitCommand state key id reply)).getD []
  | .crash id =>
      if ((state.phaseOf key id).bind Phase.pendingMax).isSome then [.drop id]
      else []
  | .loseHash lost => if lost = key then [.lose] else []
  | _ => []

/-! ## The refinement relation -/

structure Refines (key : String) (state : State) (pool : Pool CallId) : Prop where
  hash_eq : state.hashes (redisKey key) = SeqHash.ofCursor pool.active
  sequence_eq : state.sequences key = pool.allocated * segmentStep
  sequence_le : state.sequences key ≤ maxInt64
  valid : Valid segmentStep pool
  held_eq : ∀ id, (state.phaseOf key id).bind Phase.pendingMax =
    (pool.held id).map segmentMax
  issued_of_seq : ∀ id seq,
    (state.phaseOf key id).bind Phase.issuedSeq = some seq →
      ∃ value : ℕ, seq = value.repr ∧ (id, value) ∈ pool.issued
  started : ∀ id value, (id, value) ∈ pool.issued → state.calls id ≠ none

section PhaseOf

variable {state : State} {key other : String} {id id' : CallId} {phase : Phase}

theorem State.phaseOf_eq_some :
    state.phaseOf key id = some phase ↔ state.calls id = some ⟨key, phase⟩ := by
  unfold State.phaseOf
  cases hcall : state.calls id with
  | none => simp
  | some call =>
      cases call
      simp only [Option.bind_some, Option.ite_none_right_eq_some,
        Option.some.injEq, Call.mk.injEq]

theorem State.phaseOf_of_key_ne (hcall : state.calls id = some ⟨other, phase⟩)
    (hne : other ≠ key) : state.phaseOf key id = none := by
  simp [State.phaseOf, hcall, hne]

theorem State.phaseOf_of_none (hcall : state.calls id = none) :
    state.phaseOf key id = none := by
  simp [State.phaseOf, hcall]

@[simp]
theorem State.phaseOf_setPhase_same :
    (state.setPhase id key phase).phaseOf key id = some phase := by
  simp [State.phaseOf, State.setPhase]

theorem State.phaseOf_setPhase_of_key_ne (hne : other ≠ key) :
    (state.setPhase id other phase).phaseOf key id = none := by
  simp [State.phaseOf, State.setPhase, hne]

theorem State.phaseOf_setPhase_of_ne (hne : id' ≠ id) :
    (state.setPhase id other phase).phaseOf key id' = state.phaseOf key id' := by
  simp [State.phaseOf, State.setPhase, hne]

end PhaseOf

/-! ## What a step emits -/

/-- Every emission, with the step that makes it. -/
inductive Emission (key : String) (state : State) :
    Event → List (Action CallId) → Prop
  | silent (event : Event) (hkept : event ≠ .loseHash key)
      (hsync : ∀ id reply retries lockValue max, event = .command id reply →
        state.phaseOf key id ≠ some (.sync retries lockValue max)) :
      Emission key state event []
  | draw (id : CallId) (reply : Reply) (before : Phase) (hash : SeqHash)
      (seq : String) (hphase : state.phaseOf key id = some before)
      (hdraws : before.draws = true)
      (hgenerate : generateSeqLua (state.hashes (redisKey key)) =
        some (hash, some seq)) :
      Emission key state (.command id reply) [.draw id]
  | allocate (id : CallId) (retries : ℕ) (lockValue : String)
      (hphase : state.phaseOf key id = some (.allocate retries lockValue)) :
      Emission key state (.command id .ok) [.allocate id]
  | waste (id : CallId) (retries : ℕ) (lockValue : String)
      (hphase : state.phaseOf key id = some (.allocate retries lockValue)) :
      Emission key state (.command id .lost) [.allocate id, .drop id]
  | offer (id : CallId) (reply : Reply) (retries : ℕ) (lockValue : String)
      (max : ℕ) (hphase : state.phaseOf key id = some
        (.sync retries lockValue max)) (htook : reply.took = true) :
      Emission key state (.command id reply) [.offer id]
  | fail (id : CallId) (reply : Reply) (retries : ℕ) (lockValue : String)
      (max : ℕ) (hphase : state.phaseOf key id = some
        (.sync retries lockValue max)) (hfailed : reply.took = false) :
      Emission key state (.command id reply) [.drop id]
  | crash (id : CallId) (max : ℕ)
      (hpending : (state.phaseOf key id).bind Phase.pendingMax = some max) :
      Emission key state (.crash id) [.drop id]
  | lose : Emission key state (.loseHash key) [.lose]

/-- A command that neither draws nor offers emits nothing. -/
theorem emission_silent {key : String} {state : State} {id : CallId}
    {before : Phase} {reply : Reply}
    (hphase : state.phaseOf key id = some before)
    (hidle : before.pendingMax = none) :
    Emission key state (.command id reply) [] := by
  apply Emission.silent
  · simp
  · intro id' reply' retries lockValue max hevent hsync
    cases hevent
    rw [hphase] at hsync
    cases hsync
    cases hidle

theorem emission_draw {key : String} {state : State} {id : CallId}
    {before : Phase} {reply : Reply}
    (hphase : state.phaseOf key id = some before)
    (hdraws : before.draws = true) :
    Emission key state (.command id reply) (emitDraw state key id reply) := by
  have hsilent : Emission key state (.command id reply) [] :=
    emission_silent hphase (Phase.pendingMax_of_draws hdraws)
  simp only [emitDraw]
  split
  · rename_i hash seq hgenerate
    split
    · exact .draw id reply before hash seq hphase hdraws hgenerate
    · exact hsilent
  · exact hsilent

theorem emission_command {key : String} {state : State} {id : CallId}
    {before : Phase} {reply : Reply}
    (hphase : state.phaseOf key id = some before) :
    Emission key state (.command id reply)
      (emitCommand state key id reply before) := by
  cases before with
  | fastPath => exact emission_draw hphase rfl
  | retry retries => exact emission_draw hphase rfl
  | discarded retries lockValue => exact emission_draw hphase rfl
  | allocate retries lockValue =>
      simp only [emitCommand]
      split
      · rename_i htook
        cases reply with
        | ok => exact .allocate id retries lockValue hphase
        | lost => exact .waste id retries lockValue hphase
        | failed => simp [Reply.took] at htook
      · exact emission_silent hphase rfl
  | sync retries lockValue max =>
      simp only [emitCommand]
      split
      · rename_i htook
        exact .offer id reply retries lockValue max hphase htook
      · rename_i hfailed
        exact .fail id reply retries lockValue max hphase (by simpa using hfailed)
  | _ => exact emission_silent hphase rfl

theorem emission (key : String) (state : State) (event : Event) :
    Emission key state event (emit key state event) := by
  cases event with
  | command id reply =>
      cases hphase : state.phaseOf key id with
      | none =>
          simp only [emit, hphase, Option.map_none, Option.getD_none]
          apply Emission.silent
          · simp
          · intro id' reply' retries lockValue max hevent hsync
            cases hevent
            rw [hphase] at hsync
            cases hsync
      | some before =>
          simp only [emit, hphase, Option.map_some, Option.getD_some]
          exact emission_command hphase
  | crash id =>
      cases hpending : (state.phaseOf key id).bind Phase.pendingMax with
      | none => simpa [emit, hpending] using .silent _ (by simp) (by simp)
      | some max => simpa [emit, hpending] using .crash id max hpending
  | loseHash lost =>
      by_cases hkey : lost = key
      · subst hkey
        simpa [emit] using .lose
      · simpa [emit, hkey] using .silent _ (by simpa using hkey) (by simp)
  | call id key' => exact .silent _ (by simp) (by simp)
  | setnx id lockValue reply => exact .silent _ (by simp) (by simp)
  | tick ms => exact .silent _ (by simp) (by simp)

/-- Either a step offers a segment, or it runs no script that could install. -/
theorem emit_offer_or_quiet (key : String) (state : State) (event : Event) :
    (∃ id reply retries lockValue max, event = .command id reply ∧
      reply.took = true ∧
      state.phaseOf key id = some (.sync retries lockValue max) ∧
      emit key state event = [.offer id]) ∨
    ((∀ client, Action.offer client ∉ emit key state event) ∧
      ∀ id reply retries lockValue max, event = .command id reply →
        reply.took = true →
          state.phaseOf key id ≠ some (.sync retries lockValue max)) := by
  have hemission := emission key state event
  generalize emit key state event = actions at hemission
  cases hemission with
  | silent _ _ hsync =>
      refine Or.inr ⟨by simp, ?_⟩
      intro id reply retries lockValue max hevent _
      exact hsync id reply retries lockValue max hevent
  | offer id reply retries lockValue max hphase htook =>
      exact Or.inl ⟨id, reply, retries, lockValue, max, rfl, htook, hphase, rfl⟩
  | draw id reply before hash seq hphase hdraws _ =>
      refine Or.inr ⟨by simp, ?_⟩
      intro id' reply' retries lockValue max hevent _ hsync
      cases hevent
      rw [hphase] at hsync
      cases hsync
      cases hdraws
  | allocate id retries lockValue hphase =>
      refine Or.inr ⟨by simp, ?_⟩
      intro id' reply' retries lockValue max hevent _ hsync
      cases hevent
      rw [hphase] at hsync
      cases hsync
  | waste id retries lockValue hphase =>
      refine Or.inr ⟨by simp, ?_⟩
      intro id' reply' retries lockValue max hevent _ hsync
      cases hevent
      rw [hphase] at hsync
      cases hsync
  | fail id reply retries lockValue max hphase hfailed =>
      refine Or.inr ⟨by simp, ?_⟩
      intro id' reply' _ _ _ hevent htook
      cases hevent
      rw [hfailed] at htook
      cases htook
  | crash id max hpending => exact Or.inr ⟨by simp, by simp⟩
  | lose => exact Or.inr ⟨by simp, by simp⟩

namespace Refines

variable {key : String} {state next : State} {pool pool' : Pool CallId}

theorem initial (key : String) : Refines key State.initial Pool.initial where
  hash_eq := rfl
  sequence_eq := by simp [State.initial, Pool.initial]
  sequence_le := Nat.zero_le _
  valid := Valid.initial
  held_eq id := by simp [State.phaseOf, State.initial, Pool.initial]
  issued_of_seq id seq hseq := by
    simp [State.phaseOf, State.initial] at hseq
  started id value hissued := by simp [Pool.initial] at hissued

theorem fits (hrel : Refines key state pool) {index : ℕ}
    (hindex : index < pool.allocated) : segmentMax index ≤ maxInt64 := by
  have hle : segmentMax index ≤ pool.allocated * segmentStep :=
    Nat.mul_le_mul_right segmentStep hindex
  exact hle.trans (hrel.sequence_eq ▸ hrel.sequence_le)

/-- A step that only touches the phase of one call and the data of `key` keeps
the relation when the pool moves along with it. -/
theorem of_move (hrel : Refines key state pool) {id : CallId} {phase : Phase}
    (hcalls : next.calls = state.calls)
    (hhash : next.hashes (redisKey key) = SeqHash.ofCursor pool'.active)
    (hsequence : next.sequences key = pool'.allocated * segmentStep)
    (hle : next.sequences key ≤ maxInt64) (hvalid : Valid segmentStep pool')
    (hheld : ∀ other, other ≠ id → pool'.held other = pool.held other)
    (hpending : phase.pendingMax = (pool'.held id).map segmentMax)
    (hbegin : pool.issued <+: pool'.issued)
    (hnew : ∀ other value, (other, value) ∈ pool'.issued →
      (other, value) ∈ pool.issued ∨ other = id)
    (hseq : ∀ seq, phase.issuedSeq = some seq →
      ∃ value : ℕ, seq = value.repr ∧ (id, value) ∈ pool'.issued) :
    Refines key (next.setPhase id key phase) pool' where
  hash_eq := hhash
  sequence_eq := hsequence
  sequence_le := hle
  valid := hvalid
  held_eq other := by
    by_cases hid : other = id
    · subst hid
      simpa using hpending
    · rw [State.phaseOf_setPhase_of_ne hid, hheld other hid,
        ← hrel.held_eq other]
      simp only [State.phaseOf, hcalls]
  issued_of_seq other seq hother := by
    by_cases hid : other = id
    · subst hid
      exact hseq seq (by simpa using hother)
    · rw [State.phaseOf_setPhase_of_ne hid] at hother
      obtain ⟨value, heq, hmem⟩ := hrel.issued_of_seq other seq
        (by simpa only [State.phaseOf, hcalls] using hother)
      exact ⟨value, heq, hbegin.subset hmem⟩
  started other value hmem := by
    by_cases hid : other = id
    · subst hid
      simp [State.setPhase]
    · have hold := (hnew other value hmem).resolve_right hid
      simpa [State.setPhase, hid, hcalls] using hrel.started other value hold

/-- A call that neither holds a segment nor gets a number moves on. -/
theorem of_quiet (hrel : Refines key state pool) {id : CallId} {phase : Phase}
    (hcalls : next.calls = state.calls) (hhash : next.hashes = state.hashes)
    (hsequences : next.sequences = state.sequences)
    (hheld : phase.pendingMax = (state.phaseOf key id).bind Phase.pendingMax)
    (hseq : ∀ seq, phase.issuedSeq = some seq →
      (state.phaseOf key id).bind Phase.issuedSeq = some seq) :
    Refines key (next.setPhase id key phase) pool := by
  apply hrel.of_move hcalls
  · rw [hhash]
    exact hrel.hash_eq
  · rw [hsequences]
    exact hrel.sequence_eq
  · rw [hsequences]
    exact hrel.sequence_le
  · exact hrel.valid
  · exact fun other _ => rfl
  · exact hheld.trans (hrel.held_eq id)
  · exact List.prefix_refl _
  · exact fun other value hmem => Or.inl hmem
  · exact fun seq hphase => hrel.issued_of_seq id seq (hseq seq hphase)

/-- The calls of another key do not matter. -/
theorem of_other (hrel : Refines key state pool) {id : CallId} {other : String}
    {phase : Phase} (hne : other ≠ key)
    (hfree : state.calls id = none ∨
      ∃ phase', state.calls id = some ⟨other, phase'⟩)
    (hcalls : next.calls = state.calls)
    (hhash : next.hashes (redisKey key) = state.hashes (redisKey key))
    (hsequence : next.sequences key = state.sequences key) :
    Refines key (next.setPhase id other phase) pool := by
  have hphase : ∀ id', (next.setPhase id other phase).phaseOf key id' =
      state.phaseOf key id' := by
    intro id'
    by_cases hid : id' = id
    · subst hid
      rw [State.phaseOf_setPhase_of_key_ne hne]
      rcases hfree with hnone | ⟨phase', hcall⟩
      · rw [State.phaseOf_of_none hnone]
      · rw [State.phaseOf_of_key_ne hcall hne]
    · rw [State.phaseOf_setPhase_of_ne hid]
      simp only [State.phaseOf, hcalls]
  constructor
  · exact hhash.trans hrel.hash_eq
  · exact hsequence.trans hrel.sequence_eq
  · exact hsequence.trans_le hrel.sequence_le
  · exact hrel.valid
  · intro id'
    rw [hphase]
    exact hrel.held_eq id'
  · intro id' seq hseq
    rw [hphase] at hseq
    exact hrel.issued_of_seq id' seq hseq
  · intro id' value hmem
    by_cases hid : id' = id
    · simp [State.setPhase, hid]
    · simpa [State.setPhase, hid, hcalls] using hrel.started id' value hmem

/-! ## Simulation of one command -/

/-- `GENERATE_SEQ_LUA` either answers `nil` or draws from the active segment. -/
theorem generate_cases (hrel : Refines key state pool) :
    generateSeqLua (state.hashes (redisKey key)) =
        some (state.hashes (redisKey key), none) ∨
      ∃ cursor, pool.active = some cursor ∧ cursor.offset + 1 < segmentStep ∧
        generateSeqLua (state.hashes (redisKey key)) =
          some (SeqHash.ofCursor (some ⟨cursor.index, cursor.offset + 1⟩),
            some (Cursor.value segmentStep
              ⟨cursor.index, cursor.offset + 1⟩).repr) := by
  rw [hrel.hash_eq]
  cases hactive : pool.active with
  | none => exact Or.inl generateSeqLua_empty
  | some cursor =>
      by_cases hroom : cursor.offset + 1 < segmentStep
      · have hindex := hrel.valid.installed_lt _ (hrel.valid.active_mem hactive)
        exact Or.inr ⟨cursor, rfl, hroom,
          generateSeqLua_room hroom (hrel.fits hindex)⟩
      · exact Or.inl (generateSeqLua_usedUp hroom)

/-- A call that holds nothing moves to a quiet phase. -/
theorem to_quiet (hrel : Refines key state pool) {id : CallId}
    {before phase : Phase} (hphase : state.phaseOf key id = some before)
    (hidle : before.pendingMax = none) (hquiet : phase.Quiet)
    (hcalls : next.calls = state.calls) (hhash : next.hashes = state.hashes)
    (hsequences : next.sequences = state.sequences) :
    Refines key (next.setPhase id key phase) pool := by
  apply hrel.of_quiet hcalls hhash hsequences
  · simp [hphase, hidle, hquiet.1]
  · simp [hquiet.2]

theorem simulate_eval (hrel : Refines key state pool) {id : CallId}
    {before onNil onError : Phase} {onSeq : String → Phase} {reply : Reply}
    (hphase : state.phaseOf key id = some before)
    (hidle : before.pendingMax = none)
    (hheld : ∀ seq, (onSeq seq).pendingMax = none)
    (hseq : ∀ seq, (onSeq seq).issuedSeq = some seq)
    (hnil : onNil.Quiet) (herror : onError.Quiet) :
    ∃ pool', run (SegmentPool.step segmentStep) pool
        (emitDraw state key id reply) = some pool' ∧
      Refines key ((evalGenerate state key reply onSeq onNil onError).1.setPhase
        id key (evalGenerate state key reply onSeq onNil onError).2) pool' := by
  have hfree : pool.held id = none := by
    have hheld := hrel.held_eq id
    simpa [hphase, hidle] using hheld.symm
  rcases hrel.generate_cases with hgenerate | ⟨cursor, hactive, hroom, hgenerate⟩
  · refine ⟨pool, by simp [emitDraw, hgenerate], ?_⟩
    apply hrel.to_quiet hphase hidle
    · cases reply <;> simp [evalGenerate, hgenerate, hnil, herror]
    all_goals
      simp only [evalGenerate, hgenerate]
      split <;> simp [State.setHash]
  · cases htook : reply.took with
    | false =>
        refine ⟨pool, by simp [emitDraw, hgenerate, htook], ?_⟩
        have hreply : reply = .failed := by
          cases reply <;> simp [Reply.took] at htook ⊢
        subst hreply
        apply hrel.to_quiet hphase hidle <;>
          simp [evalGenerate, hgenerate, Reply.took, herror]
    | true =>
        refine ⟨pool.advance segmentStep id cursor, ?_, ?_⟩
        · simp [emitDraw, hgenerate, htook, run, SegmentPool.step, hactive, hroom]
        · simp only [evalGenerate, hgenerate, htook, if_true, Option.elim_some]
          apply hrel.of_move
          · rfl
          · simp [State.setHash, Pool.advance]
          · exact hrel.sequence_eq
          · exact hrel.sequence_le
          · exact hrel.valid.advance id hactive hroom
          · exact fun other _ => rfl
          · split
            · simp [Pool.advance, hfree, hheld]
            · simp [Pool.advance, hfree, herror.1]
          · exact List.prefix_append _ _
          · intro other value hmem
            rcases List.mem_append.mp hmem with hmem | hmem
            · exact Or.inl hmem
            · exact Or.inr (Prod.mk.inj (List.mem_singleton.mp hmem)).1
          · intro seq hissued
            split at hissued
            · rw [hseq] at hissued
              exact ⟨_, (Option.some.inj hissued).symm, by simp [Pool.advance]⟩
            · rw [herror.2] at hissued
              cases hissued

theorem simulate_allocate (hrel : Refines key state pool) {id : CallId}
    {retries : ℕ} {lockValue : String} {reply : Reply} {phase : Phase}
    (hphase : state.phaseOf key id = some (.allocate retries lockValue))
    (hresult : runAllocate state key reply retries lockValue = (next, phase)) :
    ∃ pool', run (SegmentPool.step segmentStep) pool
        (emitCommand state key id reply (.allocate retries lockValue)) =
          some pool' ∧
      Refines key (next.setPhase id key phase) pool' := by
  have hquiet : (Phase.release lockValue (.threw allocationFailed)).Quiet :=
    ⟨rfl, rfl⟩
  have hfree : pool.held id = none := by
    have hheld := hrel.held_eq id
    simpa [hphase, Phase.pendingMax] using hheld.symm
  have hoption := Option.eq_none_or_eq_some (allocateSegment state key)
  cases hoption with
  | inl hallocate =>
      simp only [runAllocate, hallocate, Option.elim, Prod.mk.injEq] at hresult
      obtain ⟨rfl, rfl⟩ := hresult
      refine ⟨pool, by simp [emitCommand, hallocate], ?_⟩
      exact hrel.to_quiet hphase rfl hquiet rfl rfl rfl
  | inr hsome =>
      obtain ⟨⟨allocated, max⟩, hallocate⟩ := hsome
      obtain ⟨hmax, hfits, hallocated⟩ := allocateSegment_eq_some hallocate
      simp only [runAllocate, hallocate, Option.elim, Prod.mk.injEq] at hresult
      obtain ⟨rfl, rfl⟩ := hresult
      have hsegment : max = segmentMax pool.allocated := by
        rw [hmax, hrel.sequence_eq, segmentMax, Nat.succ_mul]
      cases reply with
      | failed =>
          refine ⟨pool, by simp [emitCommand, Reply.took], ?_⟩
          apply hrel.to_quiet hphase rfl <;> simp [Reply.took, hquiet]
      | ok =>
          refine ⟨pool.allocate id, ?_, ?_⟩
          · simp [emitCommand, hallocate, Reply.took, run, SegmentPool.step,
              hfree]
          · apply hrel.of_move
            · simp [hallocated, Reply.took]
            · simpa [hallocated, Reply.took, Pool.allocate] using hrel.hash_eq
            · simp [hallocated, Reply.took, Pool.allocate, hsegment, segmentMax]
            · simpa [hallocated, Reply.took] using hfits
            · exact hrel.valid.allocate id
            · intro other hother
              simp [Pool.allocate, hother]
            · simp [Phase.pendingMax, Pool.allocate, hsegment]
            · exact List.prefix_refl _
            · exact fun other value hmem => Or.inl hmem
            · simp [Phase.issuedSeq]
      | lost =>
          refine ⟨(pool.allocate id).drop id, ?_, ?_⟩
          · simp [emitCommand, hallocate, Reply.took, run, SegmentPool.step,
              hfree]
          · apply hrel.of_move
            · simp [hallocated, Reply.took]
            · simpa [hallocated, Reply.took, Pool.allocate, Pool.drop] using
                hrel.hash_eq
            · simp [hallocated, Reply.took, Pool.allocate, Pool.drop, hsegment,
                segmentMax]
            · simpa [hallocated, Reply.took] using hfits
            · exact (hrel.valid.allocate id).drop id
            · intro other hother
              simp [Pool.allocate, Pool.drop, hother]
            · simp [hquiet.1, Pool.drop]
            · exact List.prefix_refl _
            · exact fun other value hmem => Or.inl hmem
            · simp [hquiet.2]

/-- A segment that is not installed is dropped. -/
theorem to_drop (hrel : Refines key state pool) {id : CallId} {phase : Phase}
    (hquiet : phase.Quiet) : Refines key (state.setPhase id key phase)
      (pool.drop id) := by
  apply hrel.of_move
  · rfl
  · exact hrel.hash_eq
  · exact hrel.sequence_eq
  · exact hrel.sequence_le
  · exact hrel.valid.drop id
  · intro other hother
    simp [Pool.drop, hother]
  · simp [hquiet.1, Pool.drop]
  · exact List.prefix_refl _
  · exact fun other value hmem => Or.inl hmem
  · simp [hquiet.2]

theorem held_of_sync (hrel : Refines key state pool) {id : CallId}
    {retries max : ℕ} {lockValue : String}
    (hphase : state.phaseOf key id = some (.sync retries lockValue max)) :
    ∃ index, pool.held id = some index ∧ max = segmentMax index := by
  have heq := hrel.held_eq id
  rw [hphase] at heq
  obtain ⟨index, hindex, hmax⟩ := Option.map_eq_some_iff.mp heq.symm
  exact ⟨index, hindex, hmax.symm⟩

theorem simulate_sync (hrel : Refines key state pool) {id : CallId}
    {retries max : ℕ} {lockValue : String} {reply : Reply} {phase : Phase}
    (hphase : state.phaseOf key id = some (.sync retries lockValue max))
    (hresult : runSync state key reply retries lockValue max = (next, phase)) :
    ∃ pool', run (SegmentPool.step segmentStep) pool
        (emitCommand state key id reply (.sync retries lockValue max)) =
          some pool' ∧
      Refines key (next.setPhase id key phase) pool' := by
  obtain ⟨index, hheld, rfl⟩ := hrel.held_of_sync hphase
  have hfailed : (Phase.release lockValue (.threw allocationFailed)).Quiet :=
    ⟨rfl, rfl⟩
  have hdiscarded : (Phase.discarded retries lockValue).Quiet := ⟨rfl, rfl⟩
  have hfirst : segmentMax index - segmentStep + 1 =
      Cursor.value segmentStep ⟨index, 0⟩ := by
    simp only [segmentMax, Cursor.value, segmentStep]
    omega
  have htaken := Bool.eq_false_or_eq_true reply.took
  cases htaken with
  | inl htook =>
      simp only [runSync, hrel.hash_eq, syncSegmentLua_ofCursor, htook, if_true,
        Prod.mk.injEq] at hresult
      obtain ⟨rfl, rfl⟩ := hresult
      cases hnewer : newer index pool.active with
      | false =>
          refine ⟨pool.drop id, ?_, ?_⟩
          · simp [emitCommand, htook, run, SegmentPool.step, hheld, hnewer]
          · have hself : state.setHash key (SeqHash.ofCursor pool.active) =
                state := by
              simp [State.setHash, ← hrel.hash_eq]
            simp only [Bool.false_eq_true, if_false, hself]
            apply hrel.to_drop
            split
            · exact hdiscarded
            · exact hfailed
      | true =>
          refine ⟨pool.install segmentStep id index, ?_, ?_⟩
          · simp [emitCommand, htook, run, SegmentPool.step, hheld, hnewer]
          · simp only [if_true]
            apply hrel.of_move
            · rfl
            · simp [State.setHash, Pool.install]
            · exact hrel.sequence_eq
            · exact hrel.sequence_le
            · exact hrel.valid.install (by decide) hheld
            · intro other hother
              simp [Pool.install, hother]
            · split <;> simp [Phase.pendingMax, Pool.install]
            · exact List.prefix_append _ _
            · intro other value hmem
              rcases List.mem_append.mp hmem with hmem | hmem
              · exact Or.inl hmem
              · exact Or.inr (Prod.mk.inj (List.mem_singleton.mp hmem)).1
            · intro seq hissued
              split at hissued
              · refine ⟨Cursor.value segmentStep ⟨index, 0⟩, ?_, ?_⟩
                · rw [← hfirst]
                  exact (Option.some.inj hissued).symm
                · simp [Pool.install]
              · cases hissued
  | inr htook =>
      have hreply : reply = .failed := by
        cases reply <;> simp [Reply.took] at htook ⊢
      subst hreply
      simp only [runSync, Reply.took, reduceCtorEq, if_false, Prod.mk.injEq,
        Bool.false_eq_true] at hresult
      obtain ⟨rfl, rfl⟩ := hresult
      refine ⟨pool.drop id, ?_, hrel.to_drop hfailed⟩
      simp [emitCommand, Reply.took, run, SegmentPool.step]

/-- Every command of a call for the key is matched by what it emits. -/
theorem simulate_command (hrel : Refines key state pool) {id : CallId}
    {before phase : Phase} {reply : Reply}
    (hphase : state.phaseOf key id = some before)
    (hcommand : command state key reply before = some (next, phase)) :
    ∃ pool', run (SegmentPool.step segmentStep) pool
        (emitCommand state key id reply before) = some pool' ∧
      Refines key (next.setPhase id key phase) pool' := by
  have hloop : ∀ retries, (loopHead retries).Quiet := by
    intro retries
    unfold loopHead
    split <;> exact ⟨rfl, rfl⟩
  cases before with
  | fastPath =>
      obtain ⟨rfl, rfl⟩ := Prod.mk.inj (Option.some.inj hcommand)
      exact hrel.simulate_eval hphase rfl (fun _ => rfl) (fun _ => rfl)
        (hloop 0) ⟨rfl, rfl⟩
  | retry retries =>
      obtain ⟨rfl, rfl⟩ := Prod.mk.inj (Option.some.inj hcommand)
      exact hrel.simulate_eval hphase rfl (fun _ => rfl) (fun _ => rfl)
        (hloop retries) ⟨rfl, rfl⟩
  | discarded retries lockValue =>
      obtain ⟨rfl, rfl⟩ := Prod.mk.inj (Option.some.inj hcommand)
      exact hrel.simulate_eval hphase rfl (fun _ => rfl) (fun _ => rfl)
        (hloop retries) ⟨rfl, rfl⟩
  | allocate retries lockValue =>
      exact hrel.simulate_allocate hphase (Option.some.inj hcommand)
  | sync retries lockValue max =>
      exact hrel.simulate_sync hphase (Option.some.inj hcommand)
  | release lockValue outcome =>
      obtain ⟨rfl, rfl⟩ := Prod.mk.inj (Option.some.inj hcommand)
      refine ⟨pool, rfl, ?_⟩
      apply hrel.of_quiet
      · split <;> rfl
      · split <;> rfl
      · split <;> rfl
      · simp [hphase, Phase.pendingMax]
      · intro seq hseq
        split at hseq
        · cases outcome with
          | returned seq' => simpa [hphase, Phase.issuedSeq] using hseq
          | threw error => cases hseq
        · cases hseq
  | acquire retries => cases hcommand
  | finished outcome => cases hcommand
  | crashed => cases hcommand

/-! ## Simulation of every step -/

/-- A new call for the key starts in a quiet phase. -/
theorem simulate_call (hrel : Refines key state pool) {id : CallId}
    (hnone : state.calls id = none) :
    Refines key (state.setPhase id key
      (if keyValid key then .fastPath
        else .finished (.threw invalidSequenceKey))) pool := by
  have hphase : state.phaseOf key id = none := State.phaseOf_of_none hnone
  apply hrel.of_quiet rfl rfl rfl
  · rw [hphase]
    split <;> rfl
  · intro seq hseq
    split at hseq <;> cases hseq

theorem simulate_acquire (hrel : Refines key state pool) {id : CallId}
    {retries : ℕ} {lockValue : String} {reply : Reply}
    (hphase : state.phaseOf key id = some (.acquire retries)) :
    Refines key ((acquireLock state key lockValue reply retries).1.setPhase id
      key (acquireLock state key lockValue reply retries).2) pool := by
  have hquiet : (acquireLock state key lockValue reply retries).2.Quiet := by
    simp only [acquireLock]
    split
    · split <;> exact ⟨rfl, rfl⟩
    · exact ⟨rfl, rfl⟩
  apply hrel.to_quiet hphase rfl hquiet
  · exact Elsewhere.acquireLock.calls_eq
  · simp only [acquireLock]
    split <;> rfl
  · simp only [acquireLock]
    split <;> rfl

theorem simulate_crash (hrel : Refines key state pool) {id : CallId} :
    ∃ pool', run (SegmentPool.step segmentStep) pool
        (emit key state (.crash id)) = some pool' ∧
      Refines key (state.setPhase id key .crashed) pool' := by
  have hquiet : Phase.crashed.Quiet := ⟨rfl, rfl⟩
  cases hpending : (state.phaseOf key id).bind Phase.pendingMax with
  | none =>
      refine ⟨pool, by simp [emit, hpending], ?_⟩
      apply hrel.of_quiet rfl rfl rfl
      · rw [hpending]
        rfl
      · simp [hquiet.2]
  | some max =>
      exact ⟨pool.drop id, by simp [emit, hpending, run, SegmentPool.step],
        hrel.to_drop hquiet⟩

theorem simulate_lose (hrel : Refines key state pool) :
    Refines key (state.setHash key SeqHash.empty) pool.lose where
  hash_eq := by simp [State.setHash, Pool.lose, SeqHash.ofCursor]
  sequence_eq := hrel.sequence_eq
  sequence_le := hrel.sequence_le
  valid := hrel.valid.lose
  held_eq := hrel.held_eq
  issued_of_seq := hrel.issued_of_seq
  started := hrel.started

theorem simulate (hrel : Refines key state pool) {event : Event}
    (hstep : IdGenerator.step state event = some next) :
    ∃ pool', run (SegmentPool.step segmentStep) pool (emit key state event) =
      some pool' ∧ Refines key next pool' := by
  cases step_effect hstep with
  | called id key' hnone =>
      refine ⟨pool, rfl, ?_⟩
      by_cases hkey : key' = key
      · subst hkey
        exact hrel.simulate_call hnone
      · exact hrel.of_other hkey (Or.inl hnone) rfl rfl rfl
  | attempted id key' lockValue reply retries hcall =>
      refine ⟨pool, rfl, ?_⟩
      by_cases hkey : key' = key
      · subst hkey
        exact hrel.simulate_acquire (State.phaseOf_eq_some.mpr hcall)
      · have helse : Elsewhere key' state
            (acquireLock state key' lockValue reply retries).1 :=
          Elsewhere.acquireLock
        exact hrel.of_other hkey (Or.inr ⟨_, hcall⟩) helse.calls_eq
          (helse.hash_eq key (Ne.symm hkey))
          (helse.sequence_eq key (Ne.symm hkey))
  | executed id key' reply before after middle hcall hcommand =>
      by_cases hkey : key' = key
      · subst hkey
        have hphase := State.phaseOf_eq_some.mpr hcall
        simp only [emit, hphase, Option.map_some, Option.getD_some]
        exact hrel.simulate_command hphase hcommand
      · have helse := Elsewhere.command hcommand
        refine ⟨pool, by simp [emit, State.phaseOf_of_key_ne hcall hkey], ?_⟩
        exact hrel.of_other hkey (Or.inr ⟨_, hcall⟩) helse.calls_eq
          (helse.hash_eq key (Ne.symm hkey))
          (helse.sequence_eq key (Ne.symm hkey))
  | crashed id key' phase hcall =>
      by_cases hkey : key' = key
      · subst hkey
        exact hrel.simulate_crash
      · refine ⟨pool, by simp [emit, State.phaseOf_of_key_ne hcall hkey], ?_⟩
        exact hrel.of_other hkey (Or.inr ⟨_, hcall⟩) rfl rfl rfl
  | ticked ms =>
      exact ⟨pool, rfl, ⟨hrel.hash_eq, hrel.sequence_eq, hrel.sequence_le,
        hrel.valid, hrel.held_eq, hrel.issued_of_seq, hrel.started⟩⟩
  | lost lost =>
      by_cases hkey : lost = key
      · subst hkey
        exact ⟨pool.lose, by simp [emit, run, SegmentPool.step],
          hrel.simulate_lose⟩
      · refine ⟨pool, by simp [emit, hkey], ?_⟩
        have helse : Elsewhere lost state
            (state.setHash lost SeqHash.empty) := Elsewhere.setHash _
        exact ⟨(helse.hash_eq key (Ne.symm hkey)).trans hrel.hash_eq,
          hrel.sequence_eq, hrel.sequence_le, hrel.valid, hrel.held_eq,
          hrel.issued_of_seq, hrel.started⟩

/-- Every run of the generator is a run of the pool of each key. -/
theorem of_run (hrel : Refines key state pool) {events : List Event}
    (hrun : run IdGenerator.step state events = some next) :
    ∃ pool', run (SegmentPool.step segmentStep) pool
        (trace IdGenerator.step (emit key) state events) = some pool' ∧
      Refines key next pool' :=
  run_simulation (fun _ _ _ _ hrel _ hstep => hrel.simulate hstep) hrel
    (guarded_true state events) hrun

end Refines

end OceanChat.IdGenerator
