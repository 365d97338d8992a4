import Mathlib.Data.List.Dedup
import NovaBank.Money.CompareAndSet
import NovaBank.Proxy.Controller

/-!
# Transfers from a stale cache

`transferMoney` of the controller takes both balances from the cache, moves the amount in the cache
and sends the request. When the replicas answer that the balances were others, it should repair the
two cached amounts with those of the answer and try again. It sets the amounts of the users `from`
and `to` instead, by these very names. So a stale amount stays, and the next attempt moves the cached
amounts once more.

`transfer_exact_iff` says when the repetition ends, with the money moved once and the cache right:
`Converges` is the condition on the cached amounts and the balances that it starts from.
-/

namespace NovaBank.Money

open Java Replica Proxy

open Proxy.BankServiceReplicationJedisCluster (Holds Entry assign assign_of_some assign_of_ne)

/-! ## The cached amounts from attempt to attempt -/

section Amounts

variable {fs ft : Option Int64} {amount rf rt : Int64}

/-- The cached amounts of both users after an attempt that was refused: moved by the amount unless the
sender's would be negative, and then set to the values of the repair, if it is about these users. -/
def nextAmounts (fs ft : Option Int64) (amount : Int64) (c : Int64 × Int64) : Int64 × Int64 :=
  let c := if 0 ≤ c.1 - amount then (c.1 - amount, c.2 + amount) else c
  (fs.getD c.1, ft.getD c.2)

/-- An attempt that moves the sender's cached amount. -/
theorem nextAmounts_moved {c : Int64 × Int64} (h : 0 ≤ c.1 - amount) :
    nextAmounts none ft amount c = (c.1 - amount, ft.getD (c.2 + amount)) := by
  rw [nextAmounts, if_pos h]
  rfl

/-- An attempt that does not. -/
theorem nextAmounts_kept {c : Int64 × Int64} (h : ¬ 0 ≤ c.1 - amount) :
    nextAmounts none ft amount c = (c.1, ft.getD c.2) := by
  rw [nextAmounts, if_neg h]
  rfl

/-- When the repair is about the sender, only the receiver's amount depends on the old ones. -/
theorem nextAmounts_some (v : Int64) (c : Int64 × Int64) :
    nextAmounts (some v) ft amount c =
      (v, ft.getD (c.2 + if 0 ≤ c.1 - amount then amount else 0)) := by
  unfold nextAmounts
  by_cases hc : 0 ≤ c.1 - amount
  · rw [if_pos hc, if_pos hc]
    rfl
  · rw [if_neg hc, if_neg hc, add_zero]
    rfl

/-- When the cached amounts reach the balances. They are right at once; or, when the repair is not
about the sender, both differ by the same number of transfers and no cached amount of the sender on
the way is negative; or the repair sets the sender's amount right, and then that of the receiver, or
the receiver's differs by some transfers. -/
def Converges (fs ft : Option Int64) (amount : Int64) (c : Int64 × Int64) (rf rt : Int64) : Prop :=
  c = (rf, rt) ∨
    match fs with
    | none => ∃ n : ℕ, 0 < n ∧ c.1 - n • amount = rf ∧
        (∀ k, 0 < k → k ≤ n → 0 ≤ c.1 - k • amount) ∧ ft.getD (c.2 + n • amount) = rt
    | some v => v = rf ∧
        match ft with
        | some w => w = rt
        | none => ∃ n : ℕ, c.2 + (if 0 ≤ c.1 - amount then amount else 0) + n • amount = rt

/-- The amounts after some attempts that are not about the sender. -/
theorem iterate_nextAmounts_none (c : Int64 × Int64) {n : ℕ} (hn : 0 < n)
    (nonneg : ∀ k, 0 < k → k ≤ n → 0 ≤ c.1 - k • amount) :
    (nextAmounts none ft amount)^[n] c = (c.1 - n • amount, ft.getD (c.2 + n • amount)) := by
  -- On the number of attempts, from the first one.
  induction n, hn using Nat.le_induction with
  | base =>
    have h1 := nonneg 1 (by omega) (le_refl 1)
    rw [one_nsmul] at h1
    rw [Function.iterate_one, nextAmounts_moved h1, one_nsmul]
  | succ n hn ih =>
    have hlast := nonneg (n + 1) (by omega) (le_refl _)
    have hsub : c.1 - (n + 1) • amount = c.1 - n • amount - amount := by
      rw [succ_nsmul]
      abel
    rw [hsub] at hlast
    have hmoved : nextAmounts none ft amount (c.1 - n • amount, ft.getD (c.2 + n • amount)) =
        (c.1 - n • amount - amount, ft.getD (ft.getD (c.2 + n • amount) + amount)) :=
      nextAmounts_moved hlast
    rw [Function.iterate_succ_apply', ih fun k h0 hk => nonneg k h0 (by omega), hmoved, hsub]
    cases ft with
    | none =>
      simp only [Option.getD_none, Prod.mk.injEq, true_and]
      rw [succ_nsmul]
      abel
    | some w => rfl

/-- The amounts after some attempts whose repair sets the sender's amount right. -/
theorem iterate_nextAmounts_some (h0 : 0 ≤ rf - amount) (n : ℕ) (b : Int64) :
    (nextAmounts (some rf) none amount)^[n] (rf, b) = (rf, b + n • amount) := by
  induction n with
  | zero => simp
  | succ n ih =>
    rw [Function.iterate_succ_apply', ih, nextAmounts, if_pos h0, succ_nsmul]
    simp only [Option.getD_some, Option.getD_none, Prod.mk.injEq, true_and]
    abel

/-- Going back by an attempt that moved the sender's cached amount: one more transfer. -/
theorem Converges.of_moved {c : Int64 × Int64} (hc : 0 ≤ c.1 - amount)
    (h : Converges none ft amount (c.1 - amount, ft.getD (c.2 + amount)) rf rt) :
    Converges none ft amount c rf rt := by
  right
  -- One attempt more than the given ones.
  rcases h with h | ⟨n, hn, hfrom, hnonneg, hto⟩
  · obtain ⟨hfrom, hto⟩ := Prod.mk.inj h
    refine ⟨1, by omega, by rw [one_nsmul]; exact hfrom, ?_, by rw [one_nsmul]; exact hto⟩
    intro k hk hk1
    obtain rfl : k = 1 := by omega
    rw [one_nsmul]
    exact hc
  · have hstep : ∀ k : ℕ, c.1 - (k + 1) • amount = c.1 - amount - k • amount := by
      intro k
      rw [succ_nsmul]
      abel
    refine ⟨n + 1, by omega, (hstep n).trans hfrom, ?_, ?_⟩
    · intro k hk hkn
      obtain ⟨j, rfl⟩ : ∃ j, k = j + 1 := ⟨k - 1, by omega⟩
      rw [hstep]
      by_cases hj : 0 < j
      · exact hnonneg j hj (by omega)
      · obtain rfl : j = 0 := by omega
        rw [zero_nsmul, sub_zero]
        exact hc
    · cases ft with
      | some w => exact hto
      | none =>
        rw [← hto]
        simp only [Option.getD_none, succ_nsmul]
        abel

/-- An attempt that cannot move the sender's cached amount leads nowhere: the cached amount is not the
balance, and stays. -/
theorem not_converges_kept (h0 : 0 ≤ rf - amount) {c : Int64 × Int64} (hc : ¬ 0 ≤ c.1 - amount) :
    ¬ Converges none ft amount (c.1, ft.getD c.2) rf rt := by
  rintro (h | ⟨n, hn, -, hnonneg, -⟩)
  · rw [(Prod.mk.inj h).1] at hc
    exact hc h0
  · have h1 := hnonneg 1 (by omega) hn
    rw [one_nsmul] at h1
    exact hc h1

/-- Going back by an attempt whose repair is about the sender. -/
theorem Converges.of_repaired (h0 : 0 ≤ rf - amount) {v : Int64} {c : Int64 × Int64}
    (h : Converges (some v) ft amount
      (v, ft.getD (c.2 + if 0 ≤ c.1 - amount then amount else 0)) rf rt) :
    Converges (some v) ft amount c rf rt := by
  right
  -- The first attempt puts the sender right, after which only the receiver moves.
  rcases h with h | ⟨rfl, h⟩
  · obtain ⟨rfl, hto⟩ := Prod.mk.inj h
    refine ⟨rfl, ?_⟩
    cases ft with
    | some w => exact hto
    | none =>
      refine ⟨0, ?_⟩
      rw [zero_nsmul, add_zero]
      exact hto
  · refine ⟨rfl, ?_⟩
    cases ft with
    | some w => exact h
    | none =>
      obtain ⟨n, hn⟩ := h
      refine ⟨n + 1, ?_⟩
      rw [if_pos h0] at hn
      rw [← hn]
      simp only [Option.getD_none, succ_nsmul]
      abel

/-- Going back by one attempt. -/
theorem Converges.of_next (h0 : 0 ≤ rf - amount) {c : Int64 × Int64}
    (h : Converges fs ft amount (nextAmounts fs ft amount c) rf rt) : Converges fs ft amount c rf rt := by
  cases fs with
  | none =>
    by_cases hc : 0 ≤ c.1 - amount
    · rw [nextAmounts_moved hc] at h
      exact Converges.of_moved hc h
    · rw [nextAmounts_kept hc] at h
      exact absurd h (not_converges_kept h0 hc)
  | some v =>
    rw [nextAmounts_some] at h
    exact Converges.of_repaired h0 h

/-- The cached amounts reach the balances after some attempts exactly under that condition. -/
theorem converges_iff (h0 : 0 ≤ rf - amount) (c : Int64 × Int64) :
    (∃ n, (nextAmounts fs ft amount)^[n] c = (rf, rt)) ↔ Converges fs ft amount c rf rt := by
  constructor
  -- On the number of attempts, from any pair of amounts.
  · rintro ⟨n, hn⟩
    induction n generalizing c with
    | zero => exact .inl hn
    | succ n ih => exact Converges.of_next h0 (ih _ hn)
  · rintro (h | h)
    · exact ⟨0, h⟩
    -- The sender is put right by the first attempt, or it has to get there by itself.
    · cases fs with
      | none =>
        obtain ⟨n, hn, hfrom, hnonneg, hto⟩ := h
        exact ⟨n, by rw [iterate_nextAmounts_none c hn hnonneg, hfrom, hto]⟩
      | some v =>
        obtain ⟨rfl, h⟩ := h
        cases ft with
        | some w =>
          obtain rfl : w = rt := h
          exact ⟨1, rfl⟩
        | none =>
          obtain ⟨n, hn⟩ := h
          refine ⟨n + 1, ?_⟩
          rw [Function.iterate_succ_apply, nextAmounts_some, iterate_nextAmounts_some h0,
            Option.getD_none, hn]

end Amounts

/-! ## The attempts -/

/-- The value that the repair after an error gives to the user of a name. -/
def repaired (name : String) (rf rt : Int64) : Option Int64 :=
  if name = "to" then some rt else if name = "from" then some rf else none

/-- The two assignments of the repair. -/
theorem assign_repair {m : String → Option JLong} {u : String} {v : Int64} (h : m u = some (some v))
    (rf rt : Int64) :
    assign (assign m "from" rf) "to" rt u = some (some ((repaired u rf rt).getD v)) := by
  -- The repair writes under the two literal names, and `to` comes last.
  by_cases hto : u = "to"
  · subst hto
    rw [assign_of_some ((assign_of_ne m (by decide) rf).trans h), repaired, if_pos rfl]
    rfl
  · rw [assign_of_ne _ (Ne.symm hto), repaired, if_neg hto]
    by_cases hfrom : u = "from"
    · subst hfrom
      rw [assign_of_some h, if_pos rfl]
      rfl
    · rw [assign_of_ne _ (Ne.symm hfrom), if_neg hfrom]
      exact h

/-- Neither the amount nor what remains is negative. -/
theorem sub_nonneg_of_le {v amount : Int64} (h0 : 0 ≤ amount) (hle : amount ≤ v) : 0 ≤ v - amount := by
  have hv := v.toInt_lt
  rw [sub_nonneg_iff (Int64.le_trans h0 hle)]
  rw [Int64.le_iff_toInt_le, Int64.toInt_zero] at h0
  rw [Int64.le_iff_toInt_le] at hle
  omega

section Attempts

variable (env : Environment) {sender receiver : String} {amount rf rt : Int64}
  {balance : JString → JLong}

/-- A deployment whose cache has the given amounts of both users, and whose replicas have the given
balances. -/
structure Between (sender receiver : String) (balance : JString → JLong) (c : Int64 × Int64)
    (d : Deployment) : Prop where
  cached : ∃ m, Holds d.cache m ∧ m sender = some (some c.1) ∧ m receiver = some (some c.2)
  balances : balanceOf d.service.bankRepo = balance

/-- The balances after the amount was moved once. -/
def movedOnce (sender receiver : String) (amount rf rt : Int64) (balance : JString → JLong) :
    JString → JLong := fun u =>
  if some receiver = u then some (rt + amount) else if some sender = u then some (rf - amount)
  else balance u

/-- What an attempt does with the amounts that it finds in the cache: it is accepted if they are the
balances, and else the words `from` and `to` are repaired. -/
theorem attemptTransferMoney_eq {d : Deployment} {cache : Redis} {v w : Int64} {b c : BankEntity}
    (hinfo : BankServiceReplicationJedisCluster.getTransferInfo sender receiver amount d.cache =
      (.ok (some ⟨v, w, v - amount, w + amount⟩), cache))
    (hb : d.service.bankRepo.findByUserName (some sender) = some b) (hbv : b.amount = some rf)
    (hc : d.service.bankRepo.findByUserName (some receiver) = some c) (hcw : c.amount = some rt) :
    RestAPIController.attemptTransferMoney env sender receiver amount d =
      if rf = v ∧ rt = w then
        (some (.ok .ok), ⟨cache, { d.service with bankRepo :=
          ((d.service.bankRepo.newUserBankEntity (b.updateAmount (v - amount))).updateUser
            (some receiver) fun b => b.updateAmount (w + amount)).save }⟩)
      else
        (none, ⟨BankServiceReplicationJedisCluster.setAmount "to" rt
            (BankServiceReplicationJedisCluster.setAmount "from" rf cache),
          { d.service with bankRepo := d.service.bankRepo.save }⟩) := by
  have hrun := ordered_transferMoney_eq env.jvm hb hbv hc hcw v w (v - amount) (w + amount)
  rw [RestAPIController.attemptTransferMoney, hinfo]
  dsimp only
  rw [hrun]
  -- The reply of a refused request is read for the amounts under the two literal names.
  by_cases e : rf = v ∧ rt = w
  · rw [if_pos e, if_pos e]
    rfl
  · rw [if_neg e, if_neg e]
    rfl

/-- An attempt with the right amounts moves the money once, at the replicas and in the cache. -/
theorem attempt_done (distinct : sender ≠ receiver) (hrf : balance (some sender) = some rf)
    (hrt : balance (some receiver) = some rt) (h0 : 0 ≤ rf - amount) {d : Deployment}
    (h : Between sender receiver balance (rf, rt) d) :
    ∃ d', RestAPIController.attemptTransferMoney env sender receiver amount d =
        (some (.ok .ok), d') ∧
      balanceOf d'.service.bankRepo = movedOnce sender receiver amount rf rt balance ∧
      Entry d'.cache sender (some (rf - amount)) ∧ Entry d'.cache receiver (some (rt + amount)) := by
  obtain ⟨m, hm, hs, ht⟩ := h.cached
  obtain ⟨cache, hinfo, hcache⟩ := hm.getTransferInfo hs ht amount
  obtain ⟨b, hb, hbv⟩ := find_of_balanceOf ((congrFun h.balances (some sender)).trans hrf)
  obtain ⟨c, hc, hcw⟩ := find_of_balanceOf ((congrFun h.balances (some receiver)).trans hrt)
  refine ⟨_, (attemptTransferMoney_eq env hinfo hb hbv hc hcw).trans (if_pos ⟨rfl, rfl⟩), ?_, ?_, ?_⟩
  · funext u
    rw [movedOnce, ← h.balances]
    exact balanceOf_setTwo hb hc _ _ u
  -- The cache has moved the money as well, since the amount is covered.
  · apply hcache.entry
    rw [Holds.transferred, if_pos h0, assign_of_ne _ distinct.symm, assign_of_some hs]
  · apply hcache.entry
    rw [Holds.transferred, if_pos h0]
    exact assign_of_some ((assign_of_ne m distinct _).trans ht) _

/-- An attempt with other amounts is refused, and the cached amounts move on. -/
theorem attempt_again (distinct : sender ≠ receiver) (hrf : balance (some sender) = some rf)
    (hrt : balance (some receiver) = some rt) {c : Int64 × Int64} {d : Deployment}
    (h : Between sender receiver balance c d) (hne : ¬ c = (rf, rt)) :
    ∃ d', RestAPIController.attemptTransferMoney env sender receiver amount d = (none, d') ∧
      Between sender receiver balance
        (nextAmounts (repaired sender rf rt) (repaired receiver rf rt) amount c) d' := by
  obtain ⟨m, hm, hs, ht⟩ := h.cached
  obtain ⟨cache, hinfo, hcache⟩ := hm.getTransferInfo hs ht amount
  obtain ⟨b, hb, hbv⟩ := find_of_balanceOf ((congrFun h.balances (some sender)).trans hrf)
  obtain ⟨b', hb', hbv'⟩ := find_of_balanceOf ((congrFun h.balances (some receiver)).trans hrt)
  have hother : ¬ (rf = c.1 ∧ rt = c.2) := by
    rintro ⟨rfl, rfl⟩
    exact hne rfl
  refine ⟨_, (attemptTransferMoney_eq env hinfo hb hbv hb' hbv').trans (if_neg hother), ?_, h.balances⟩
  refine ⟨_, (hcache.setAmount "from" rf).setAmount "to" rt, ?_, ?_⟩
  -- The cache has moved the amounts, unless the sender's would be negative.
  · unfold Holds.transferred nextAmounts
    by_cases hc : 0 ≤ c.1 - amount
    · rw [if_pos hc, if_pos hc]
      exact assign_repair ((assign_of_ne _ distinct.symm _).trans (assign_of_some hs _)) rf rt
    · rw [if_neg hc, if_neg hc]
      exact assign_repair hs rf rt
  · unfold Holds.transferred nextAmounts
    by_cases hc : 0 ≤ c.1 - amount
    · rw [if_pos hc, if_pos hc]
      exact assign_repair (assign_of_some ((assign_of_ne m distinct _).trans ht) _) rf rt
    · rw [if_neg hc, if_neg hc]
      exact assign_repair ht rf rt

end Attempts

/-! ## The transfer -/

/-- What a transfer should do: it returns success after finitely many attempts, the amount has been
moved once at the replicas, and the cached amounts of both users are their balances. -/
def ExactTransfer (env : Environment) (sender receiver : String) (amount rf rt : Int64)
    (d : Deployment) : Prop :=
  ∃ d', (RestCall.transferMoney sender receiver (some amount)).Returns env d .ok d' ∧
    balanceOf d'.service.bankRepo =
      movedOnce sender receiver amount rf rt (balanceOf d.service.bankRepo) ∧
    Entry d'.cache sender (balanceOf d'.service.bankRepo (some sender)) ∧
    Entry d'.cache receiver (balanceOf d'.service.bankRepo (some receiver))

/-- **When a transfer from a stale cache ends with the exact effect:** for two users with any cached
amounts and any balances, and an amount that the sender has, exactly when the cached amounts converge
to the balances. -/
theorem transfer_exact_iff (env : Environment) {d : Deployment} {m : String → Option JLong}
    (cache : Holds d.cache m) {sender receiver : String} (distinct : sender ≠ receiver)
    {cf ct rf rt : Int64} (hcf : m sender = some (some cf)) (hct : m receiver = some (some ct))
    (hrf : balanceOf d.service.bankRepo (some sender) = some rf)
    (hrt : balanceOf d.service.bankRepo (some receiver) = some rt) {amount : Int64}
    (h0 : 0 ≤ amount) (enough : amount ≤ rf) :
    ExactTransfer env sender receiver amount rf rt d ↔
      Converges (repaired sender rf rt) (repaired receiver rf rt) amount (cf, ct) rf rt := by
  have hrest : 0 ≤ rf - amount := sub_nonneg_of_le h0 enough
  rw [← converges_iff hrest]
  have hstart : Between sender receiver (balanceOf d.service.bankRepo) (cf, ct) d :=
    ⟨⟨m, cache, hcf, hct⟩, rfl⟩
  have hretry := @Retry.returns_iff_iterate _ _ _
    (RestAPIController.attemptTransferMoney env sender receiver amount) d
    (Between sender receiver (balanceOf d.service.bankRepo))
    (nextAmounts (repaired sender rf rt) (repaired receiver rf rt) amount) (fun c => c = (rf, rt))
    (fun a d' => a = .ok .ok ∧
      balanceOf d'.service.bankRepo =
        movedOnce sender receiver amount rf rt (balanceOf d.service.bankRepo) ∧
      Entry d'.cache sender (some (rf - amount)) ∧ Entry d'.cache receiver (some (rt + amount)))
    (fun c d₁ hd hc => by
      subst hc
      obtain ⟨d', hd', h⟩ := attempt_done env distinct hrf hrt hrest hd
      exact ⟨_, d', hd', rfl, h⟩)
    (fun c d₁ hd hc => attempt_again env distinct hrf hrt hd hc) (cf, ct) hstart
  rw [← hretry]
  -- After the move, the balances are those that the cache has.
  have hsender : movedOnce sender receiver amount rf rt (balanceOf d.service.bankRepo) (some sender) =
      some (rf - amount) := by
    rw [movedOnce, if_neg fun e => distinct (Option.some.inj e).symm, if_pos rfl]
  have hreceiver : movedOnce sender receiver amount rf rt (balanceOf d.service.bankRepo)
      (some receiver) = some (rt + amount) := if_pos rfl
  constructor
  · rintro ⟨d', hreturns, hmoved, hs, ht⟩
    rw [hmoved, hsender] at hs
    rw [hmoved, hreceiver] at ht
    exact ⟨_, d', hreturns, rfl, hmoved, hs, ht⟩
  · rintro ⟨_, d', hreturns, rfl, hmoved, hs, ht⟩
    refine ⟨d', hreturns, hmoved, ?_, ?_⟩
    · rw [hmoved, hsender]
      exact hs
    · rw [hmoved, hreceiver]
      exact ht

/-! ## Two names -/

/-- Two users at the replicas, `sender` with 20 and `receiver` with 10, and a cache with the given
amounts. -/
def stale (sender receiver : String) (cf ct : Int64) : Deployment :=
  let jvm := Jvm.plain (ContractClass.queueing [])
  let st := (BankService.new.appExecuteOrdered jvm
    (registerUser (some sender) (some "secret") (some 20) none)).2
  let st := (st.appExecuteOrdered jvm
    (registerUser (some receiver) (some "secret") (some 10) none)).2
  ⟨(BankServiceReplicationJedisCluster.addNewUser receiver "secret" (some ct)
    (BankServiceReplicationJedisCluster.addNewUser sender "secret" (some cf) Redis.empty).2).2, st⟩

/-- An environment whose Redis lists the keys in the order in which they came. -/
def plainEnvironment : Environment where
  jvm := Jvm.plain (ContractClass.queueing [])
  scan := fun r => r.hashes.keys
  keys := fun r => ((r.hashes.keys ++ r.sets.keys).filter
    BankServiceReplicationJedisCluster.isUserKey).dedup
  keys_nodup := fun r => List.nodup_dedup _
  mem_keys := by
    intro r s
    rw [List.mem_dedup, List.mem_filter, List.mem_append, and_comm]

/-- The cache of such a deployment. -/
theorem holds_stale (sender receiver : String) (distinct : sender ≠ receiver) (cf ct : Int64) :
    ∃ m, Holds (stale sender receiver cf ct).cache m ∧ m sender = some (some cf) ∧
      m receiver = some (some ct) := by
  refine ⟨_, (BankServiceReplicationJedisCluster.holds_empty.addNewUser rfl "secret" _).addNewUser
    ?_ "secret" _, ?_, ?_⟩
  · rw [Function.update_of_ne distinct.symm]
  · rw [Function.update_of_ne distinct, Function.update_self]
  · rw [Function.update_self]

/-- The cached amounts of `alice` and `bob` are those of two transfers before: two refused attempts
move them to the balances. -/
theorem transfer_exact_after_two :
    ExactTransfer plainEnvironment "alice" "bob" 5 20 10 (stale "alice" "bob" 30 0) := by
  obtain ⟨m, hm, hs, ht⟩ := holds_stale "alice" "bob" (by decide) 30 0
  refine (transfer_exact_iff plainEnvironment hm (by decide) hs ht (by decide) (by decide) (by decide)
    (by decide)).mpr (.inr ⟨2, by decide, by decide, ?_, by decide⟩)
  intro k h0 hk
  obtain rfl | rfl : k = 1 ∨ k = 2 := by omega
  · decide
  · decide

/-- **A stale amount is not repaired:** the cached amount of `alice` is 19 instead of 20. No attempt
sets it right, so that the transfer does not return. -/
theorem stale_transfer_never_returns :
    balanceOf (stale "alice" "bob" 19 10).service.bankRepo (some "alice") = some 20 ∧
      balanceOf (stale "alice" "bob" 19 10).service.bankRepo (some "bob") = some 10 ∧
      Entry (stale "alice" "bob" 19 10).cache "alice" (some 19) ∧
      Entry (stale "alice" "bob" 19 10).cache "bob" (some 10) ∧
      (∀ status d', ¬ (RestCall.transferMoney "alice" "bob" (some 5)).Returns plainEnvironment
        (stale "alice" "bob" 19 10) status d') ∧
      ¬ ExactTransfer plainEnvironment "alice" "bob" 5 20 10 (stale "alice" "bob" 19 10) := by
  obtain ⟨m, hm, hs, ht⟩ := holds_stale "alice" "bob" (by decide) 19 10
  have hrf : balanceOf (stale "alice" "bob" 19 10).service.bankRepo (some "alice") = some 20 := by decide
  have hrt : balanceOf (stale "alice" "bob" 19 10).service.bankRepo (some "bob") = some 10 := by decide
  -- The cached amounts from attempt to attempt. The last ones stay.
  have hnext : ∀ c ∈ [((19, 10) : Int64 × Int64), (14, 15), (9, 20), (4, 25)], c ≠ (20, 10) ∧
      nextAmounts (repaired "alice" 20 10) (repaired "bob" 20 10) 5 c ∈
        [((19, 10) : Int64 × Int64), (14, 15), (9, 20), (4, 25)] := by
    intro c hc
    simp only [List.mem_cons, List.not_mem_nil, or_false] at hc
    rcases hc with rfl | rfl | rfl | rfl <;> decide
  have hnever : ∀ status d', ¬ (RestCall.transferMoney "alice" "bob" (some 5)).Returns plainEnvironment
      (stale "alice" "bob" 19 10) status d' := by
    intro status d'
    refine Retry.not_returns (I := fun d => ∃ c ∈ [((19, 10) : Int64 × Int64), (14, 15), (9, 20),
      (4, 25)], Between "alice" "bob" (balanceOf (stale "alice" "bob" 19 10).service.bankRepo) c d)
      ?_ ⟨(19, 10), by decide, ⟨m, hm, hs, ht⟩, rfl⟩
    rintro d ⟨c, hc, hd⟩
    obtain ⟨hne, hmem⟩ := hnext c hc
    obtain ⟨d₁, hd₁, hbetween⟩ := attempt_again plainEnvironment (by decide) hrf hrt hd hne
    exact ⟨d₁, hd₁, _, hmem, hbetween⟩
  refine ⟨hrf, hrt, hm.entry hs, hm.entry ht, hnever, ?_⟩
  rintro ⟨d', hreturns, -⟩
  exact hnever .ok d' hreturns

end NovaBank.Money
