import OceanChat.Core.SegmentPool

/-!
# Order and economy of segment allocation

Three run theorems about a segment pool.  While the register is never lost the
numbers come out in increasing order.  The installed segments come out in
increasing order exactly when no stale segment is offered to an empty register.
When clients allocate one at a time and nothing is lost, the numbers are
`1, ..., n` exactly when every segment is offered to a used-up register.
-/

namespace SegmentPool

open Runs

variable {Client : Type*} [DecidableEq Client] {size : ℕ}

/-! ## Histories only grow -/

theorem issued_grows {pool next : Pool Client} {action : Action Client}
    (hstep : step size pool action = some next) :
    pool.issued <+: next.issued := by
  cases step_effect size hstep with
  | install client index _ _ => exact List.prefix_append _ _
  | advance client cursor _ _ => exact List.prefix_append _ _
  | _ => exact List.prefix_refl _

theorem installed_grows {pool next : Pool Client} {action : Action Client}
    (hstep : step size pool action = some next) :
    pool.installed <+: next.installed := by
  cases step_effect size hstep with
  | install client index _ _ => exact List.prefix_append _ _
  | _ => exact List.prefix_refl _

theorem issued_run_grows {pool final : Pool Client}
    {actions : List (Action Client)}
    (hrun : run (step size) pool actions = some final) :
    pool.issued <+: final.issued :=
  run_invariant (fun later => pool.issued <+: later.issued)
    (fun _ _ _ hgrow hstep => hgrow.trans (issued_grows hstep))
    (List.prefix_refl _) hrun

/-- Only an offer installs a segment. -/
theorem installed_eq_of_run {pool final : Pool Client}
    {actions : List (Action Client)}
    (hoffer : ∀ client, Action.offer client ∉ actions)
    (hrun : run (step size) pool actions = some final) :
    final.installed = pool.installed := by
  have hguarded : Guarded (step size)
      (fun _ action => ∀ client, action ≠ .offer client) pool actions := by
    apply guarded_of_forall
    rintro action haction _ client rfl
    exact hoffer client haction
  refine run_invariant_of_guarded
    (fun later => later.installed = pool.installed) ?_ rfl hguarded hrun
  intro middle action next hmiddle hguard hstep
  cases step_effect size hstep with
  | install client index _ _ => exact absurd rfl (hguard client)
  | _ => exact hmiddle

/-! ## Increasing numbers -/

/-- The step does not lose the register. -/
def Durable (_ : Pool Client) (action : Action Client) : Prop :=
  action ≠ .lose

/-- Nothing was issued above the register's cursor. -/
structure Ordered (size : ℕ) (pool : Pool Client) : Prop where
  increasing : pool.values.Pairwise (· < ·)
  bounded : ∀ value ∈ pool.values, ∃ cursor, pool.active = some cursor ∧
    value ≤ cursor.value size

omit [DecidableEq Client] in
theorem Ordered.initial : Ordered size (Pool.initial : Pool Client) := by
  constructor <;> simp [Pool.initial, Pool.values]

omit [DecidableEq Client] in
/-- Issuing a number above everything issued before keeps the order. -/
theorem Ordered.extend {pool next : Pool Client} (hordered : Ordered size pool)
    {client : Client} (cursor : Cursor)
    (hissued : next.issued = pool.issued ++ [(client, cursor.value size)])
    (hactive : next.active = some cursor)
    (habove : ∀ current, pool.active = some current →
      current.value size < cursor.value size) : Ordered size next := by
  have hvalues : next.values = pool.values ++ [cursor.value size] := by
    simp [Pool.values, hissued]
  have hbelow : ∀ value ∈ pool.values, value < cursor.value size := by
    intro value hvalue
    obtain ⟨current, hcurrent, hle⟩ := hordered.bounded value hvalue
    exact hle.trans_lt (habove current hcurrent)
  constructor
  · rw [hvalues, List.pairwise_append]
    exact ⟨hordered.increasing, List.pairwise_singleton _ _,
      fun value hvalue other hother => by
        rw [List.mem_singleton.mp hother]
        exact hbelow value hvalue⟩
  · intro value hvalue
    refine ⟨cursor, hactive, ?_⟩
    rw [hvalues] at hvalue
    rcases List.mem_append.mp hvalue with hvalue | hvalue
    · exact (hbelow value hvalue).le
    · exact (List.mem_singleton.mp hvalue).le

theorem Ordered.of_step {pool next : Pool Client} {action : Action Client}
    (hvalid : Valid size pool) (hordered : Ordered size pool)
    (hdurable : Durable pool action)
    (hstep : step size pool action = some next) : Ordered size next := by
  cases step_effect size hstep with
  | allocate client _ => exact ⟨hordered.increasing, hordered.bounded⟩
  | install client index _ hnewer =>
      refine hordered.extend ⟨index, 0⟩ rfl rfl ?_
      intro current hcurrent
      apply Cursor.value_lt_of_index_lt (hvalid.active_offset current hcurrent)
      simpa [newer, hcurrent] using hnewer
  | discard client _ _ _ => exact ⟨hordered.increasing, hordered.bounded⟩
  | advance client cursor hactive _ =>
      refine hordered.extend ⟨cursor.index, cursor.offset + 1⟩ rfl rfl ?_
      intro current hcurrent
      obtain rfl : cursor = current := Option.some.inj (hactive.symm.trans hcurrent)
      simp only [Cursor.value]
      omega
  | drop client => exact ⟨hordered.increasing, hordered.bounded⟩
  | lose => exact absurd rfl hdurable

theorem Ordered.of_run (hsize : 0 < size) {final : Pool Client}
    {actions : List (Action Client)}
    (hdurable : Guarded (step size) Durable Pool.initial actions)
    (hrun : run (step size) Pool.initial actions = some final) :
    Ordered size final := by
  refine (run_invariant_of_guarded
    (fun pool => Valid size pool ∧ Ordered size pool)
    ?_ ⟨Valid.initial, Ordered.initial⟩ hdurable hrun).2
  intro pool action next hinv hguard hstep
  exact ⟨hinv.1.of_step hsize hstep, hinv.2.of_step hinv.1 hguard hstep⟩

/-! ## Increasing segments -/

private theorem le_getLast_of_pairwise {values : List ℕ} {last : ℕ}
    (hsorted : values.Pairwise (· < ·)) (hlast : values.getLast? = some last)
    (value : ℕ) (hvalue : value ∈ values) : value ≤ last := by
  obtain ⟨front, rfl⟩ := List.getLast?_eq_some_iff.mp hlast
  rcases List.mem_append.mp hvalue with hvalue | hvalue
  · exact ((List.pairwise_append.mp hsorted).2.2 value hvalue last (by simp)).le
  · exact (List.mem_singleton.mp hvalue).le

/-- The step does not offer a segment older than an installed one to an empty
register. -/
def NotStale (pool : Pool Client) (action : Action Client) : Prop :=
  ∀ client index, action = .offer client → pool.held client = some index →
    pool.active = none → ∀ earlier ∈ pool.installed, earlier < index

theorem installed_pairwise_iff_notStale (hsize : 0 < size) {final : Pool Client}
    {actions : List (Action Client)}
    (hrun : run (step size) Pool.initial actions = some final) :
    final.installed.Pairwise (· < ·) ↔
      Guarded (step size) NotStale Pool.initial actions := by
  rw [← always_iff_final (fun pool : Pool Client =>
    pool.installed.Pairwise (· < ·)) ?_ hrun]
  · refine always_iff_guarded (fun _ _ => True)
      (fun pool => Valid size pool ∧ pool.installed.Pairwise (· < ·)) _
      (fun _ hinv => hinv.2) ?_ ?_
      ⟨Valid.initial, by simp [Pool.initial]⟩ (guarded_true _ _) hrun
    · intro pool action next hinv _ hguard hstep
      refine ⟨hinv.1.of_step hsize hstep, ?_⟩
      cases step_effect size hstep with
      | install client index hheld hnewer =>
          refine List.pairwise_append.mpr
            ⟨hinv.2, List.pairwise_singleton _ _, ?_⟩
          intro earlier hearlier other hother
          rw [List.mem_singleton.mp hother]
          cases hactive : pool.active with
          | none => exact hguard client index rfl hheld hactive earlier hearlier
          | some cursor =>
              have hlast := hinv.1.active_last cursor hactive
              have hle := le_getLast_of_pairwise hinv.2 hlast earlier hearlier
              have hlt : cursor.index < index := by
                simpa [newer, hactive] using hnewer
              exact hle.trans_lt hlt
      | _ => exact hinv.2
    · intro pool action next hinv _ hguard hstep hsorted
      apply hguard
      intro client index haction hheld hactive earlier hearlier
      subst haction
      have hnewer : newer index pool.active = true := by simp [newer, hactive]
      have hnext : next = pool.install size client index := by
        simpa [step, hheld, hnewer] using hstep.symm
      subst hnext
      exact (List.pairwise_append.mp hsorted).2.2 earlier hearlier index (by simp)
  · intro pool action next hstep hsorted
    exact hsorted.sublist (installed_grows hstep).sublist

/-! ## Consecutive numbers -/

/-- Clients allocate one at a time, and nothing is dropped or lost. -/
def Exclusive (pool : Pool Client) : Action Client → Prop
  | .allocate _ => ∀ other, pool.held other = none
  | .drop _ => False
  | .lose => False
  | _ => True

/-- A segment is offered only to a register that is empty or used up. -/
def UsedUp (size : ℕ) (pool : Pool Client) (action : Action Client) : Prop :=
  ∀ client, action = .offer client →
    ∀ cursor, pool.active = some cursor → cursor.offset + 1 = size

/-- The last number of the register, `0` when nothing was installed yet. -/
def Pool.top (size : ℕ) (pool : Pool Client) : ℕ :=
  pool.active.elim 0 (Cursor.value size)

/-- The segment that follows the one in the register. -/
def Pool.following (pool : Pool Client) : ℕ :=
  pool.active.elim 0 fun cursor => cursor.index + 1

structure Contiguous (size : ℕ) (pool : Pool Client) : Prop where
  values_eq : pool.values = List.range' 1 (pool.top size)
  held_following : ∀ client index, pool.held client = some index →
    index = pool.following ∧ pool.allocated = pool.following + 1
  idle : (∀ client, pool.held client = none) →
    pool.allocated = pool.following

omit [DecidableEq Client] in
theorem Contiguous.initial : Contiguous size (Pool.initial : Pool Client) := by
  constructor <;> simp [Pool.initial, Pool.values, Pool.top, Pool.following]

omit [DecidableEq Client] in
theorem Contiguous.newer_of_held {pool : Pool Client}
    (hcontiguous : Contiguous size pool) {client : Client} {index : ℕ}
    (hheld : pool.held client = some index) :
    newer index pool.active = true := by
  obtain ⟨rfl, -⟩ := hcontiguous.held_following client index hheld
  cases hactive : pool.active <;> simp [newer, Pool.following, hactive]

theorem Contiguous.allocate {pool : Pool Client}
    (hcontiguous : Contiguous size pool)
    (hfree : ∀ other, pool.held other = none) (client : Client) :
    Contiguous size (pool.allocate client) where
  values_eq := hcontiguous.values_eq
  held_following other index hheld := by
    have hallocated : pool.allocated = pool.following := hcontiguous.idle hfree
    have hindex : pool.allocated = index := by
      by_cases hclient : other = client
      · subst hclient
        simpa [Pool.allocate] using hheld
      · simp [Pool.allocate, hclient, hfree] at hheld
    exact ⟨hindex.symm.trans hallocated, congrArg (· + 1) hallocated⟩
  idle hidle := by
    have := hidle client
    simp [Pool.allocate] at this

theorem Contiguous.install {pool : Pool Client} (hvalid : Valid size pool)
    (hcontiguous : Contiguous size pool) {client : Client} {index : ℕ}
    (hheld : pool.held client = some index)
    (husedUp : ∀ cursor, pool.active = some cursor → cursor.offset + 1 = size) :
    Contiguous size (pool.install size client index) := by
  obtain ⟨rfl, hallocated⟩ := hcontiguous.held_following client index hheld
  have hfree : ∀ other, (pool.install size client pool.following).held other =
      none := by
    intro other
    by_cases hclient : other = client
    · simp [Pool.install, hclient]
    · rw [Option.eq_none_iff_forall_ne_some]
      intro index' hother
      have hother' : pool.held other = some index' := by
        simpa [Pool.install, hclient] using hother
      obtain ⟨rfl, -⟩ := hcontiguous.held_following other index' hother'
      exact hclient (hvalid.held_injective other client _ hother' hheld)
  have htop : Cursor.value size ⟨pool.following, 0⟩ = pool.top size + 1 := by
    cases hactive : pool.active with
    | none => simp [Cursor.value, Pool.following, Pool.top, hactive]
    | some cursor =>
        have hoffset := husedUp cursor hactive
        simp only [Cursor.value, Pool.following, Pool.top, hactive,
          Option.elim_some, Nat.succ_mul]
        omega
  constructor
  · have hvalues : (pool.install size client pool.following).values =
        pool.values ++ [pool.top size + 1] := by
      simp [Pool.values, Pool.install, htop]
    rw [hvalues, hcontiguous.values_eq]
    simp only [Pool.top, Pool.install, Option.elim_some, htop]
    rw [List.range'_concat, Nat.one_mul, Nat.add_comm 1]
  · intro other index' hother
    rw [hfree other] at hother
    cases hother
  · intro _
    exact hallocated

omit [DecidableEq Client] in
theorem Contiguous.advance {pool : Pool Client}
    (hcontiguous : Contiguous size pool) (client : Client) {cursor : Cursor}
    (hactive : pool.active = some cursor) :
    Contiguous size (pool.advance size client cursor) := by
  have hfollowing : (pool.advance size client cursor).following =
      pool.following := by
    simp [Pool.following, Pool.advance, hactive]
  constructor
  · have hvalues : (pool.advance size client cursor).values =
        pool.values ++ [cursor.value size + 1] := by
      simp [Pool.values, Pool.advance, Cursor.value, Nat.add_assoc]
    rw [hvalues, hcontiguous.values_eq]
    have htop : (pool.advance size client cursor).top size =
        pool.top size + 1 := by
      simp [Pool.top, Pool.advance, hactive, Cursor.value, Nat.add_assoc]
    rw [htop, List.range'_concat, Nat.one_mul, Nat.add_comm 1]
    simp [Pool.top, hactive]
  · intro other index hheld
    rw [hfollowing]
    exact hcontiguous.held_following other index hheld
  · intro hidle
    rw [hfollowing]
    exact hcontiguous.idle hidle

private theorem eq_range_of_prefix {values : List ℕ} {count : ℕ}
    (hbegin : values <+: List.range' 1 count) :
    values = List.range' 1 values.length := by
  have htake := List.prefix_iff_eq_take.mp hbegin
  have hlength := hbegin.length_le
  rw [List.length_range'] at hlength
  rwa [List.take_range'_of_length_ge hlength] at htake

/-- Without losses and with one allocation at a time, the issued numbers are
`1, ..., n` exactly when every segment finds the register used up. -/
theorem values_eq_range_iff_usedUp (hsize : 0 < size) {final : Pool Client}
    {actions : List (Action Client)}
    (hexclusive : Guarded (step size) Exclusive Pool.initial actions)
    (hrun : run (step size) Pool.initial actions = some final) :
    final.values = List.range' 1 final.issued.length ↔
      Guarded (step size) (UsedUp size) Pool.initial actions := by
  rw [← always_iff_final (fun pool : Pool Client =>
    pool.values = List.range' 1 pool.issued.length) ?_ hrun]
  · refine always_iff_guarded _
      (fun pool => Valid size pool ∧ Contiguous size pool) _
      ?_ ?_ ?_ ⟨Valid.initial, Contiguous.initial⟩ hexclusive hrun
    · rintro pool ⟨-, hcontiguous⟩
      have hlength := congrArg List.length hcontiguous.values_eq
      rw [List.length_range', Pool.values, List.length_map] at hlength
      rw [hlength]
      exact hcontiguous.values_eq
    · rintro pool action next ⟨hvalid, hcontiguous⟩ halone husedUp hstep
      refine ⟨hvalid.of_step hsize hstep, ?_⟩
      cases step_effect size hstep with
      | allocate client _ => exact hcontiguous.allocate halone client
      | install client index hheld _ =>
          exact hcontiguous.install hvalid hheld (husedUp client rfl)
      | discard client index hheld holder =>
          rw [hcontiguous.newer_of_held hheld] at holder
          cases holder
      | advance client cursor hactive _ =>
          exact hcontiguous.advance client hactive
      | drop client => exact halone.elim
      | lose => exact halone.elim
    · rintro pool action next ⟨hvalid, hcontiguous⟩ _ hwasteful hstep hvalues
      apply hwasteful
      intro client haction cursor hactive
      subst haction
      cases step_effect size hstep with
      | install _ index hheld _ =>
          obtain ⟨rfl, -⟩ := hcontiguous.held_following client index hheld
          have hoffset := hvalid.active_offset cursor hactive
          have hlength := congrArg List.length hcontiguous.values_eq
          rw [List.length_range', Pool.values, List.length_map] at hlength
          have hlast := congrArg List.getLast? hvalues
          simp only [Pool.values, Pool.install, List.map_append, List.map_cons,
            List.map_nil, List.getLast?_append, List.getLast?_singleton,
            List.length_append, List.length_singleton, hlength,
            List.range'_concat, Option.some_or, Option.some.injEq,
            Cursor.value, Pool.following, Pool.top, hactive, Option.elim_some,
            Nat.succ_mul] at hlast
          omega
      | discard _ index hheld holder =>
          rw [hcontiguous.newer_of_held hheld] at holder
          cases holder
  · intro pool action next hstep hvalues
    have hbegin : pool.values <+: next.values :=
      (issued_grows hstep).map Prod.snd
    rw [hvalues] at hbegin
    have heq := eq_range_of_prefix hbegin
    rwa [Pool.values, List.length_map] at heq

end SegmentPool
