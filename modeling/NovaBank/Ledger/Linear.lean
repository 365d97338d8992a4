import NovaBank.Ledger.Rounds
import NovaBank.Spec.Refinement

/-!
# The replicated bank is one bank

The replication library gives the ordered requests one order, which every correct replica goes through at
its own pace and with reads in between (`Follows`). Operations of contracts, if there are any, have to have
their places in this order, too. Of `3 f + 1` replicas at most `f` are Byzantine, and a
proxy believes a message that `2 f + 1` replies have in common.

`ordered_linearizable`: every confirmed ordered request is answered as by a single bank that executes the
requests one after the other, and when one request is confirmed before another one is sent, it comes
before it in the order. `reads_regular`: an unordered request is answered as by that bank at some point
after all ordered requests that were confirmed before it, and before all that are sent after it. Two reads
need not agree on the order of these points.

A replica and the bank are related step by step (`History.office_eq`), so the proof is about the number of
places that a replica has gone through when it serves a request, and about what two quorums share.
-/

namespace NovaBank.Ledger

open Java Replica Proxy Spec

/-! ## The order -/

/-- Whether replicas execute an action in their common order. Reads have no place in it. -/
def inOrder : Action → Bool
  | .unordered _ => false
  | _ => true

/-- The first `k` actions of the order. -/
def first (order : ℕ → Action) (k : ℕ) : List Action := (List.range k).map order

/-- One more action of the order. -/
theorem first_succ (order : ℕ → Action) (k : ℕ) : first order (k + 1) = first order k ++ [order k] := by
  unfold first
  rw [List.range_succ, List.map_append, List.map_singleton]

namespace History

variable {jvm : Jvm} (h : History jvm)

/-- What a replica has executed of the order before the moment `t`. -/
def done (t : ℕ) : List Action := ((List.range t).filterMap h.action).filter inOrder

/-- The place in the order at which a replica is at the moment `t`. -/
def place (t : ℕ) : ℕ := (h.done t).length

/-- The replica goes through the order. -/
def Follows (order : ℕ → Action) : Prop := ∀ t, h.done t = first order (h.place t)

/-- What has been executed of the order one moment later. -/
theorem done_succ (t : ℕ) :
    h.done (t + 1) = h.done t ++ (h.action t).toList.filter inOrder := by
  unfold done
  rw [List.range_succ, List.filterMap_append, List.filter_append]
  cases hx : h.action t <;> simp [hx]

/-- The place of a replica never goes back. -/
theorem place_mono {t t' : ℕ} (hle : t ≤ t') : h.place t ≤ h.place t' := by
  induction t', hle using Nat.le_induction with
  | base => exact Nat.le_refl _
  | succ t' _ ih =>
    have hstep : h.place t' ≤ h.place (t' + 1) := by
      unfold place
      rw [done_succ, List.length_append]
      omega
    omega

section InOrder

variable {h} {t : ℕ} {x : Action}

/-- What is executed of the order at the moment `t`. -/
theorem done_succ_of_inOrder (hx : h.action t = some x) (hin : inOrder x = true) :
    h.done (t + 1) = h.done t ++ [x] := by
  rw [done_succ, hx, Option.toList_some, List.filter_cons_of_pos hin, List.filter_nil]

/-- An action of the order takes a replica to the next place. -/
theorem place_succ (hx : h.action t = some x) (hin : inOrder x = true) :
    h.place (t + 1) = h.place t + 1 := by
  unfold place
  rw [done_succ_of_inOrder hx hin, List.length_append, List.length_singleton]

/-- After an action of the order, a replica is further for good. -/
theorem place_lt (hx : h.action t = some x) (hin : inOrder x = true) {t' : ℕ} (hlt : t < t') :
    h.place t < h.place t' := by
  have hnext := place_succ hx hin
  have hmono : h.place (t + 1) ≤ h.place t' := h.place_mono hlt
  omega

/-- What a replica executes in order is what the order has in its place. -/
theorem Follows.order_eq {order : ℕ → Action} (follows : h.Follows order) (hx : h.action t = some x)
    (hin : inOrder x = true) : order (h.place t) = x := by
  have hdone := done_succ_of_inOrder hx hin
  rw [follows (t + 1), place_succ hx hin, first_succ, ← follows t] at hdone
  exact List.singleton_inj.mp (List.append_cancel_left hdone)

end InOrder

/-- The bank of a replica is the one after what it has executed of the order. -/
theorem office_eq (t : ℕ) : office (h.state t) = (h.done t).foldl (Office.step jvm) Office.new := by
  induction t with
  | zero =>
    rw [h.start]
    rfl
  | succ t ih =>
    rw [h.step, done_succ, List.foldl_append, ← ih]
    cases h.action t with
    | none => rfl
    | some x =>
      have hstep : office (x.run jvm (h.state t)) = (office (h.state t)).step jvm x :=
        step_refines (h.indexed t) x
      rw [Option.elim_some, hstep]
      -- The bank does not change with a read.
      cases x <;> rfl

end History

/-! ## Confirmed requests -/

/-- The bank after the first `k` actions of the order. -/
def bankAfter (jvm : Jvm) (order : ℕ → Action) (k : ℕ) : Office :=
  (first order k).foldl (Office.step jvm) Office.new

section Placed

variable {jvm : Jvm} {w : Wire} {f : ℕ} {byzantine : Finset (Fin (3 * f + 1))}
  {replica : Fin (3 * f + 1) → History jvm}

/-- The message of a round tells what the bank answers to the request, where the bank determines it. -/
def Confirms (r : Round w f byzantine replica) (o : Office) : Prop :=
  ∀ reply, o.reply jvm r.access = some reply → ∃ os, reply = .ok (some os) ∧
    ∀ x xs, os = x :: xs → (∀ b, x ≠ .bid b) → w.readFirst r.message = .ok (objectOf jvm x)

/-- The request of a round has the place `k` in the order: the correct replicas whose replies have arrived
have executed it there. -/
def Placed (r : Round w f byzantine replica) (k : ℕ) : Prop :=
  ∀ i ∈ r.arrival, i ∉ byzantine → ∃ t, ExecutedAt r i t ∧ (replica i).place t = k

variable {order : ℕ → Action} {r : Round w f byzantine replica} {i : Fin (3 * f + 1)} {t : ℕ}

/-- What a replica serves is what the bank answers at the place of the replica. -/
theorem Served.confirms (h : Served r i t) (follows : (replica i).Follows order) :
    Confirms r (bankAfter jvm order ((replica i).place t)) := by
  intro reply hreply
  have hoffice : office ((replica i).state t) = bankAfter jvm order ((replica i).place t) := by
    rw [History.office_eq, follows t]
    rfl
  rw [← hoffice] at hreply
  have haccess := reply_refines ((replica i).indexed t) hreply
  obtain ⟨os, hos, hfirst⟩ := h.reply
  rw [haccess] at hos
  exact ⟨os, hos, hfirst⟩

/-- The correct members of a quorum serve the request in its place. -/
theorem Placed.quorum {k : ℕ} (h : Placed r k) :
    ∃ quorum : Finset (Fin (3 * f + 1)), 2 * f + 1 ≤ quorum.card ∧
      ∀ i ∈ quorum, i ∉ byzantine → ∃ t, Served r i t ∧ (replica i).place t = k := by
  obtain ⟨quorum, hcard, hmembers⟩ := r.quorum_executed
  refine ⟨quorum, hcard, fun i hi hcorrect => ?_⟩
  obtain ⟨harrival, hserved⟩ := hmembers i hi
  obtain ⟨t, ht, hplace⟩ := h i harrival hcorrect
  exact ⟨t, hserved t ht, hplace⟩

/-- A replica that serves an ordered request is further from then on. -/
theorem Served.place_lt (h : Served r i t) {command : Command} (hr : r.access = .ordered command)
    {t' : ℕ} (hlt : t < t') : (replica i).place t < (replica i).place t' := by
  have haction := h.action
  rw [hr] at haction
  exact History.place_lt haction rfl hlt

end Placed

section Linear

variable {jvm : Jvm} (w : Wire) (f : ℕ) (byzantine : Finset (Fin (3 * f + 1)))
  (few : byzantine.card ≤ f) (replica : Fin (3 * f + 1) → History jvm) (order : ℕ → Action)
  (follows : ∀ i, i ∉ byzantine → (replica i).Follows order) {ι : Type}
  (rounds : ι → Round w f byzantine replica) (place : ι → ℕ)
  (ordered : ∀ a, ∃ command, (rounds a).access = .ordered command)
  (placed : ∀ a, Placed (rounds a) (place a))

include few follows ordered placed

/-- **Ordered requests are linearizable:** the correct replicas go through one order of actions, and the
requests of some rounds have their places in it. Then each of these requests is the action in its place and
is answered as by a single bank that has executed what comes before, and a request that is confirmed before
another one is sent comes before it in the order. -/
theorem ordered_linearizable :
    (∀ a, order (place a) = (rounds a).access.action ∧
      Confirms (rounds a) (bankAfter jvm order (place a))) ∧
    ∀ a b, (rounds a).decided ≤ (rounds b).sent → place a < place b := by
  constructor
  · intro a
    obtain ⟨quorum, hcard, hserved⟩ := (placed a).quorum
    obtain ⟨i, hi, hcorrect⟩ := Quorum.exists_correct few hcard
    obtain ⟨t, ht, hplace⟩ := hserved i hi hcorrect
    obtain ⟨command, hcommand⟩ := ordered a
    have hin : inOrder (rounds a).access.action = true := by
      rw [hcommand]
      rfl
    rw [← hplace]
    exact ⟨(follows i hcorrect).order_eq ht.action hin, ht.confirms (follows i hcorrect)⟩
  · intro a b hbefore
    obtain ⟨quorum, hcard, hserved⟩ := (placed a).quorum
    obtain ⟨quorum', hcard', hserved'⟩ := (placed b).quorum
    -- A correct replica has served both.
    obtain ⟨i, hi, hi', hcorrect⟩ :=
      Quorum.exists_correct_of_two (Fintype.card_fin _) few hcard hcard'
    obtain ⟨t, ht, hplace⟩ := hserved i hi hcorrect
    obtain ⟨t', ht', hplace'⟩ := hserved' i hi' hcorrect
    obtain ⟨command, hcommand⟩ := ordered a
    have hlt : t < t' := by
      have hdecided := ht.before
      have hsent := ht'.after
      omega
    rw [← hplace, ← hplace']
    exact ht.place_lt hcommand hlt

/-- **Reads are regular:** when no correct replica is past the place of a request before that is sent, any
read is answered as by the bank at a point of the order that comes after every ordered request that was
confirmed before the read was sent, and before every one that is sent after the read was answered. -/
theorem reads_regular
    (causal : ∀ a i, i ∉ byzantine → (replica i).place (rounds a).sent ≤ place a)
    (read : Round w f byzantine replica) :
    ∃ k, Confirms read (bankAfter jvm order k) ∧
      ∀ a, ((rounds a).decided ≤ read.sent → place a < k) ∧
        (read.decided ≤ (rounds a).sent → k ≤ place a) := by
  obtain ⟨quorum, hcard, hserved⟩ := read.quorum
  -- The moment at which each correct member of the quorum has answered.
  choose! moment hmoment using hserved
  obtain ⟨i, hi, hcorrect, hfurthest⟩ := Quorum.exists_furthest (Fintype.card_fin _) few hcard
    fun i => (replica i).place (moment i)
  refine ⟨(replica i).place (moment i), (hmoment i hi hcorrect).confirms (follows i hcorrect), ?_⟩
  intro a
  constructor
  · intro hbefore
    obtain ⟨quorum', hcard', hserved'⟩ := (placed a).quorum
    apply hfurthest quorum' hcard'
    intro j hj' hj hjcorrect
    obtain ⟨t, ht, hplace⟩ := hserved' j hj' hjcorrect
    obtain ⟨command, hcommand⟩ := ordered a
    have hlt : t < moment j := by
      have hdecided := ht.before
      have hsent := (hmoment j hj hjcorrect).after
      omega
    rw [← hplace]
    exact ht.place_lt hcommand hlt
  · intro hafter
    have hlt : moment i ≤ (rounds a).sent := by
      have hdecided := (hmoment i hi hcorrect).before
      omega
    calc (replica i).place (moment i) ≤ (replica i).place (rounds a).sent :=
          (replica i).place_mono hlt
      _ ≤ place a := causal a i hcorrect

end Linear

/-! ## Two registrations and a read -/

/-- The order: `bob` is registered, and then `carol`, again and again. -/
def bobOrder : ℕ → Action
  | 0 => .ordered (registerUser (some "bob") (some "secret") (some 7) none)
  | _ => .ordered (registerUser (some "carol") (some "hidden") (some 8) none)

/-- What the replicas have executed of the order after the second registration. -/
theorem done_bobReplica (i : Fin (3 * 1 + 1)) (t : ℕ) :
    (bobReplica i).done (t + 3) = [bobOrder 0, bobOrder 1] := by
  induction t with
  | zero => rfl
  | succ t ih =>
    rw [History.done_succ, ih]
    rfl

/-- The replicas go through the order. -/
theorem follows_bobReplica (i : Fin (3 * 1 + 1)) : (bobReplica i).Follows bobOrder := by
  intro t
  rcases t with _ | _ | _ | t
  · rfl
  · rfl
  · rfl
  · have hdone : (bobReplica i).done (t + 1 + 1 + 1) = [bobOrder 0, bobOrder 1] := done_bobReplica i t
    unfold History.place
    rw [hdone]
    rfl

/-- Both are ordered requests. -/
theorem ordered_registrations (a : Bool) : ∃ command, (registrations a).access = .ordered command := by
  cases a <;> exact ⟨_, rfl⟩

/-- Their places in the order are 0 and 1. -/
theorem placed_registrations (a : Bool) : Placed (registrations a) a.toNat := by
  intro i _ hi
  cases a with
  | false =>
    exact ⟨0, ⟨Nat.le_refl 0, Nat.zero_lt_one, rfl, some [.name (some "bob")], rfl, sends_bob hi⟩, rfl⟩
  | true =>
    exact ⟨2, ⟨Nat.le_refl 2, by decide, rfl, some [.name (some "carol")], rfl, sends_carol hi⟩, rfl⟩

/-- The registration of `bob` is answered as by the empty bank and that of `carol` as by the bank with
`bob`, and the former, which is confirmed before the latter is sent, comes before it in the order. -/
theorem linearizable_bob :
    Confirms bobRegistration (bankAfter bobJvm bobOrder 0) ∧
      Confirms carolRegistration (bankAfter bobJvm bobOrder 1) ∧
      bobRegistration.decided ≤ carolRegistration.sent ∧ false.toNat < true.toNat := by
  obtain ⟨hplaces, hbefore⟩ := ordered_linearizable javaWire 1 {3} (by decide) bobReplica bobOrder
    (fun i _ => follows_bobReplica i) registrations Bool.toNat ordered_registrations placed_registrations
  have hdecided : bobRegistration.decided ≤ carolRegistration.sent := Nat.le_succ 1
  exact ⟨(hplaces false).2, (hplaces true).2, hdecided, hbefore false true hdecided⟩

/-- The question for `bob` is answered as by a bank with the one registration and without the other. -/
theorem regular_bob : Confirms bobQuery (bankAfter bobJvm bobOrder 1) := by
  have hcausal : ∀ (a : Bool) i, i ∉ ({3} : Finset (Fin (3 * 1 + 1))) →
      (bobReplica i).place (registrations a).sent ≤ a.toNat := by
    intro a i _
    cases a <;> exact Nat.le_refl _
  obtain ⟨k, hk, hplaces⟩ := reads_regular javaWire 1 {3} (by decide) bobReplica bobOrder
    (fun i _ => follows_bobReplica i) registrations Bool.toNat ordered_registrations placed_registrations
    hcausal bobQuery
  have hafter : 0 < k := (hplaces false).1 (Nat.le_refl 1)
  have hbefore : k ≤ 1 := (hplaces true).2 (Nat.le_refl 2)
  obtain rfl : k = 1 := by omega
  exact hk

end NovaBank.Ledger
