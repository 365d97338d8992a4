import Mathlib.Data.Fintype.Card
import NovaBank.Common.Cost
import NovaBank.Money.Stale
import NovaBank.Replica.Runs

/-!
# Deposits of several proxies to one account

Each proxy deposits by compare-and-set: it sends the balance that it has in its cache, and when the
replicas have another one it takes that into the cache and tries again. Meanwhile the other proxies and
everybody else change the balance.

`refusals_bounded`: as long as the balance is positive, an attempt is refused only when the balance has
changed since the proxy saw it. So of `n` proxies, whatever the order of their attempts and whatever the
replicas do besides, at most `n` attempts are refused for each change of the balance, and `n` more. The
proxies cannot keep each other from finishing: the potential is the number of the proxies whose cached
amount is not the balance.
-/

namespace NovaBank.Money.Contention

open Java Replica Proxy

open Proxy.BankServiceReplicationJedisCluster (Holds assign assign_of_some getMoney)

/-- Proxies with their caches, in front of the replicas. -/
structure Proxies (n : ℕ) where
  cache : Fin n → Redis
  service : BankService

/-- An attempt of a proxy to deposit an amount, or whatever else the replicas do. -/
inductive Event (n : ℕ) where
  | deposit (p : Fin n) (amount : Int64)
  | other (x : Action)

variable {n : ℕ}

/-- One attempt of `createMoney(who, amount)` at a proxy. -/
def attempt (env : Environment) (who : String) (s : Proxies n) (p : Fin n) (amount : Int64) :
    Attempted × Deployment :=
  RestAPIController.attemptCreateMoney env who amount ⟨s.cache p, s.service⟩

/-- The proxies and the replicas after an event. -/
def step (env : Environment) (who : String) (s : Proxies n) : Event n → Proxies n
  | .deposit p amount =>
    let (_, d) := attempt env who s p amount
    ⟨Function.update s.cache p d.cache, d.service⟩
  | .other x => { s with service := x.run env.jvm s.service }

/-- 1 for an attempt that is refused. -/
def refusals (env : Environment) (who : String) (s : Proxies n) : Event n → ℕ
  | .deposit p amount => if (attempt env who s p amount).1 = none then 1 else 0
  | .other _ => 0

/-- The balance of the user at the replicas. -/
def balance (who : String) (s : Proxies n) : JLong := balanceOf s.service.bankRepo (some who)

/-- 1 for an event that changes the balance. -/
def changes (env : Environment) (who : String) (s : Proxies n) (e : Event n) : ℕ :=
  if balance who (step env who s e) = balance who s then 0 else 1

/-- The proxies whose cached amount is not the balance. -/
def stale (who : String) (s : Proxies n) : Finset (Fin n) :=
  Finset.univ.filter fun p => getMoney who (s.cache p) ≠ .ok (balance who s)

/-- Every proxy has the user in its cache, with some amount. -/
def Known (who : String) (s : Proxies n) : Prop :=
  ∀ p, ∃ m c, Holds (s.cache p) m ∧ m who = some (some c)

/-- The user has a positive balance. -/
def Positive (who : String) (s : Proxies n) : Prop := ∃ v, 0 < v ∧ balance who s = some v

section Steps

variable {env : Environment} {who : String} {s : Proxies n}

/-- There are no more stale proxies than proxies. -/
theorem card_stale_le (who : String) (s : Proxies n) : (stale who s).card ≤ n := by
  have h := Finset.card_le_univ (stale who s)
  rwa [Fintype.card_fin] at h

/-- A proxy is stale when its cached amount is not the balance. -/
theorem mem_stale {p : Fin n} : p ∈ stale who s ↔ getMoney who (s.cache p) ≠ .ok (balance who s) := by
  simp [stale]

/-- A proxy that has the balance in its cache is not stale, and the others are as before. -/
theorem stale_update_subset {p : Fin n} {d : Deployment}
    (hbalance : balanceOf d.service.bankRepo (some who) = balance who s)
    (hp : getMoney who d.cache = .ok (balance who s)) :
    stale who (⟨Function.update s.cache p d.cache, d.service⟩ : Proxies n) ⊆ (stale who s).erase p := by
  intro q hq
  rw [mem_stale, balance, hbalance] at hq
  dsimp only at hq
  have hqp : q ≠ p := by
    rintro rfl
    rw [Function.update_self] at hq
    exact hq hp
  rw [Function.update_of_ne hqp] at hq
  exact Finset.mem_erase.mpr ⟨hqp, mem_stale.mpr hq⟩

/-- An attempt from the balance itself is accepted, and both sides have the sum then. -/
theorem attempt_fresh (env : Environment) {p : Fin n} {m : String → Option JLong} {v : Int64}
    (hm : Holds (s.cache p) m) (hcached : m who = some (some v)) (hpos : 0 < v)
    (hbalance : balance who s = some v) (amount : Int64) :
    ∃ d, attempt env who s p amount = (some (.ok .ok), d) ∧
      Holds d.cache (assign m who (v + amount)) ∧
      balanceOf d.service.bankRepo (some who) = some (v + amount) := by
  obtain ⟨b, hb, hv⟩ := find_of_balanceOf hbalance
  have hcompared : (if v = v then v else -v) = v := if_pos rfl
  obtain ⟨d, hd, hholds, husers⟩ := @deposit_done ⟨s.cache p, s.service⟩ m who v v b env hm hcached hb hv
    amount (by rw [hcompared]; exact Int64.le_of_lt hpos)
  refine ⟨d, hd, hholds, ?_⟩
  rw [balanceOf_of_users husers, balanceOf_setAmount hb, if_pos rfl]

/-- An attempt from another amount is refused, and leaves the balance in the cache. -/
theorem attempt_stale (env : Environment) {p : Fin n} {m : String → Option JLong} {c v : Int64}
    (hm : Holds (s.cache p) m) (hcached : m who = some (some c)) (hpos : 0 < v)
    (hbalance : balance who s = some v) (hne : c ≠ v) (amount : Int64) :
    ∃ d, attempt env who s p amount = (none, d) ∧ Holds d.cache (assign m who v) ∧
      balanceOf d.service.bankRepo (some who) = some v := by
  obtain ⟨b, hb, hv⟩ := find_of_balanceOf hbalance
  -- A positive balance that is not the cached one is refused, and the reply carries it.
  have hcompared : (if v = c then v else -v) = -v := if_neg hne.symm
  have hrefused : ¬ 0 ≤ -v := fun h => (neg_nonneg_iff v).mp h (.inl hpos)
  obtain ⟨d, hd, hholds, husers⟩ := @deposit_again ⟨s.cache p, s.service⟩ m who c v b env hm hcached hb hv
    amount (by rw [hcompared]; exact hrefused)
  rw [hcompared, neg_neg] at hholds
  refine ⟨d, hd, hholds, ?_⟩
  rw [balanceOf_of_users husers]
  exact hbalance

/-- The caches have the user after every event. -/
theorem known_step (hknown : Known who s) (hpositive : Positive who s) (e : Event n) :
    Known who (step env who s e) := by
  cases e with
  | other x => exact hknown
  | deposit p amount =>
    obtain ⟨v, hpos, hbalance⟩ := hpositive
    obtain ⟨m, c, hm, hcached⟩ := hknown p
    -- Whatever the attempt does, the cache of this proxy has an amount of the user afterwards.
    have hafter : ∃ w, Holds (attempt env who s p amount).2.cache (assign m who w) := by
      by_cases hfresh : c = v
      · subst hfresh
        obtain ⟨d, hd, hholds, -⟩ := attempt_fresh env hm hcached hpos hbalance amount
        exact ⟨_, by rw [hd]; exact hholds⟩
      · obtain ⟨d, hd, hholds, -⟩ := attempt_stale env hm hcached hpos hbalance hfresh amount
        exact ⟨_, by rw [hd]; exact hholds⟩
    obtain ⟨w, hholds⟩ := hafter
    intro q
    by_cases hqp : q = p
    · subst hqp
      refine ⟨assign m who w, w, ?_, assign_of_some hcached w⟩
      simp only [step, Function.update_self]
      exact hholds
    · obtain ⟨m', c', hm', hcached'⟩ := hknown q
      refine ⟨m', c', ?_, hcached'⟩
      simp only [step, Function.update_of_ne hqp]
      exact hm'

/-- An event that changes the balance, and is no refusal. -/
theorem refusals_of_changed {e : Event n} (hrefusals : refusals env who s e = 0)
    (hchanged : balance who (step env who s e) ≠ balance who s) :
    refusals env who s e + (stale who (step env who s e)).card ≤
      (stale who s).card + n * changes env who s e := by
  have hcard := card_stale_le who (step env who s e)
  rw [hrefusals, changes, if_neg hchanged]
  omega

/-- A refusal makes a proxy fresh, and only a change of the balance makes proxies stale. -/
theorem refusals_step (hknown : Known who s) (hpositive : Positive who s) (e : Event n) :
    refusals env who s e + (stale who (step env who s e)).card ≤
      (stale who s).card + n * changes env who s e := by
  cases e with
  | other x =>
    by_cases hsame : balance who (step env who s (.other x)) = balance who s
    · have hstale : stale who (step env who s (.other x)) = stale who s := by
        ext q
        rw [mem_stale, mem_stale, hsame]
        rfl
      rw [hstale, refusals, Nat.zero_add]
      exact Nat.le_add_right _ _
    · exact refusals_of_changed rfl hsame
  | deposit p amount =>
    obtain ⟨v, hpos, hbalance⟩ := hpositive
    obtain ⟨m, c, hm, hcached⟩ := hknown p
    -- A fresh cache is accepted, and a stale one is refused and then fresh.
    by_cases hfresh : c = v
    · subst hfresh
      obtain ⟨d, hd, hholds, hbalance'⟩ := attempt_fresh env hm hcached hpos hbalance amount
      have hstep : step env who s (.deposit p amount) =
          ⟨Function.update s.cache p d.cache, d.service⟩ := by rw [step, hd]
      have hrefusals : refusals env who s (.deposit p amount) = 0 := by
        rw [refusals, hd, if_neg (Option.some_ne_none _)]
      by_cases hsame : balance who (step env who s (.deposit p amount)) = balance who s
      · rw [hstep] at hsame
        have hget : getMoney who d.cache = .ok (balance who s) := by
          rw [hholds.getMoney_eq who, assign_of_some hcached, ← hsame, balance, hbalance']
        have hcard := (Finset.card_le_card (@stale_update_subset n who s p d hsame hget)).trans
          Finset.card_erase_le
        rw [hstep, hrefusals]
        omega
      · exact refusals_of_changed hrefusals hsame
    · obtain ⟨d, hd, hholds, hbalance'⟩ := attempt_stale env hm hcached hpos hbalance hfresh amount
      have hstep : step env who s (.deposit p amount) =
          ⟨Function.update s.cache p d.cache, d.service⟩ := by rw [step, hd]
      have hrefusals : refusals env who s (.deposit p amount) = 1 := by
        rw [refusals, hd, if_pos rfl]
      have hget : getMoney who d.cache = .ok (balance who s) := by
        rw [hholds.getMoney_eq who, assign_of_some hcached, hbalance]
      have hmem : p ∈ stale who s := by
        rw [mem_stale, hm.getMoney_eq who, hcached, hbalance]
        simpa using hfresh
      have hcard := Finset.card_le_card
        (@stale_update_subset n who s p d (hbalance'.trans hbalance.symm) hget)
      rw [Finset.card_erase_of_mem hmem] at hcard
      -- The refused proxy leaves the stale ones, which pays for the refusal.
      have hpositive : 0 < (stale who s).card := Finset.card_pos.mpr ⟨p, hmem⟩
      rw [hstep, hrefusals]
      omega

end Steps

/-- **Proxies do not keep each other from finishing:** any number of proxies try to deposit to an account
that all of them have in their caches, with whatever amounts, and the replicas do whatever else they do, in
any order. As long as the balance is positive, the attempts that are refused are at most as many as the
proxies, and once more so many for each change of the balance. -/
theorem refusals_bounded (env : Environment) {n : ℕ} (who : String) (s : Proxies n)
    (xs : List (Event n)) (known : Known who s)
    (positive : ∀ ys, ys <+: xs → Positive who (ys.foldl (step env who) s)) :
    Cost.total (step env who) (refusals env who) s xs ≤
      n * (Cost.total (step env who) (changes env who) s xs + 1) := by
  have hbound := @Cost.total_le_of_potential (Proxies n) (Event n) (step env who) (refusals env who)
    (fun s e => n * changes env who s e) (fun s => (stale who s).card) (Known who) (Positive who)
    (fun s e hknown hpositive => known_step hknown hpositive e)
    (fun s e hknown hpositive => refusals_step hknown hpositive e) s xs known positive
  have hstart := card_stale_le who s
  rw [Cost.total_mul] at hbound
  rw [Nat.mul_add, Nat.mul_one]
  omega

/-- Two proxies that have seen `alice` with 5. -/
def twoProxies : Proxies 2 := ⟨fun _ => registered.cache, registered.service⟩

/-- Both deposit 1, and the second one tries again. -/
def bothDeposit : List (Event 2) := [.deposit 0 1, .deposit 1 1, .deposit 1 1]

/-- One attempt is refused, and two change the balance. -/
theorem refusals_bothDeposit :
    Cost.total (step plainEnvironment "alice") (refusals plainEnvironment "alice") twoProxies
        bothDeposit = 1 ∧
      Cost.total (step plainEnvironment "alice") (refusals plainEnvironment "alice") twoProxies
        bothDeposit ≤
      2 * (Cost.total (step plainEnvironment "alice") (changes plainEnvironment "alice") twoProxies
        bothDeposit + 1) := by
  refine ⟨by decide, refusals_bounded plainEnvironment "alice" twoProxies bothDeposit
    (fun _ => ⟨_, 5, mirrors_registered.holds, by decide⟩) ?_⟩
  intro ys hys
  -- The four points of the run.
  rw [← List.mem_inits] at hys
  simp only [bothDeposit, List.inits, List.map_cons, List.map_nil, List.mem_cons, List.not_mem_nil,
    or_false] at hys
  rcases hys with rfl | rfl | rfl | rfl
  · exact ⟨5, by decide, by decide⟩
  · exact ⟨6, by decide, by decide⟩
  · exact ⟨6, by decide, by decide⟩
  · exact ⟨7, by decide, by decide⟩

end NovaBank.Money.Contention
