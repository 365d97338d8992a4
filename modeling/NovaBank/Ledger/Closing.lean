import NovaBank.Money.Effects

/-!
# Closed is final

A listed auction stays the same object under its id, and one that is closed is never touched again
(`Continues`), so that its owner, its bids and the winner are what they were when it was closed.
Closing pays the owner in the same step. But the auction is closed before the pay-out, which throws
when the owner has no amount: such an auction is closed for good and never paid.
`closed_final_iff`: all of this holds of a run exactly when every step that closes an auction meets
an owner with a balance.
-/

namespace NovaBank.Ledger

open Java Replica Money

/-! ## What a later state keeps -/

/-- The listed auctions are still listed as the same objects, and the closed ones are untouched. -/
structure Continues (s s' : BankRepository) : Prop where
  listed : ∀ k r, s.auctions.lookup k = some r → s'.auctions.lookup k = some r
  closed : ∀ k r, s.closedAuctions.lookup k = some r →
    s'.closedAuctions.lookup k = some r ∧ s'.auction r = s.auction r

namespace Continues

variable {s s' : BankRepository}

/-- An update of the accounts or of the version touches no auction. -/
theorem of_eq {us : Users} {v : Int32} : Continues s { s with users := us, version := v } :=
  ⟨fun _ _ h => h, fun _ _ h => ⟨h, rfl⟩⟩

/-- A continuation of a continuation is one. -/
theorem trans {s'' : BankRepository} (h : Continues s s') (h' : Continues s' s'') :
    Continues s s'' := by
  refine ⟨fun k r hk => h'.listed k r (h.listed k r hk), fun k r hk => ?_⟩
  obtain ⟨hc, ho⟩ := h.closed k r hk
  obtain ⟨hc', ho'⟩ := h'.closed k r hc
  exact ⟨hc', ho'.trans ho⟩

/-- Every change continues the auctions. -/
theorem of_change (h : Indexed s) (hc : Change s s') : Continues s s' := by
  cases hc with
  | register b free => exact of_eq
  | setAmount who b v user => exact of_eq
  | openAuction id who b user free =>
    rw [BankServiceHelper.createAuction_of_free user free]
    refine ⟨fun k r hk => ?_, fun k r hk => ⟨hk, ?_⟩⟩
    · -- The new id was free.
      have hne : id ≠ k := by
        rintro rfl
        simp [BankRepository.findByAuctionID, hk] at free
      simpa [AuctionEntity.new, hne] using hk
    · exact s.createAuction_auction _ (h.object (h.closed hk).1).1
  | closeAuction id r q auction opened =>
    refine ⟨fun k p hk => ?_, fun k p hk => ⟨?_, ?_⟩⟩
    · rw [h.auctions_closeAuction auction]
      exact hk
    · -- A closed id is not the one that is opened.
      have hne : id ≠ k := by
        rintro rfl
        rw [BankRepository.findByOpenedAuctionID, (h.closed hk).2.1] at opened
        cases opened
      rw [h.closedAuctions_closeAuction auction, if_neg hne]
      exact hk
    · have hpr : p ≠ r := by
        have hq := Option.some.inj ((h.opened opened).1.symm.trans auction)
        exact hq ▸ h.closed_ne_opened hk opened
      exact (h.auction_closeAuction auction p).trans (if_neg hpr)
  | placeBid bid r q b v user amount enough auction opened free =>
    have hobj := s.updateAuction_auction (h.object auction).1 fun a => a.addBid bid
    rw [h.acceptBid_eq user auction free]
    refine ⟨fun k p hk => hk, fun k p hk => ⟨hk, ?_⟩⟩
    have hpr : p ≠ r := by
      have hq := Option.some.inj ((h.opened opened).1.symm.trans auction)
      exact hq ▸ h.closed_ne_opened hk opened
    exact (hobj p).trans (if_neg hpr)

/-- A chain of updates continues the auctions. -/
theorem of_updates (h : Indexed s) (hu : Updates s s') : Continues s s' := by
  induction hu with
  | refl => exact of_eq
  | tail hu hstep ih =>
    refine ih.trans ?_
    cases hstep with
    | change hc => exact of_change (h.updates hu) hc
    | version v => exact of_eq

/-- Every continuation of a run continues the auctions. -/
theorem of_run (jvm : Jvm) (ys zs : List Action) :
    Continues (reached jvm ys) (reached jvm (ys ++ zs)) :=
  of_updates (reached_indexed ys) (reached_append ys zs)

end Continues

/-! ## The step that closes an auction -/

/-- Between two states the last bid of the auction `r` was added to the balance of its owner. -/
def PaidOut (s s' : BankRepository) (r : AuctionRef) : Prop :=
  ∃ v, balanceOf s (s.auction r).ownerUsername = some v ∧
    balanceOf s' (s.auction r).ownerUsername = some (v + (s.auction r).getLastBidAmount)

/-- An action that is meant to close the auction `k`: the request, or the operation of a contract. -/
inductive TriesToClose (k : JLong) : Action → Prop where
  | request (command : Command) (who : JString)
      (h : decodeOrdered command = .ok (.ledger (.closeAuction who k))) :
      TriesToClose k (.ordered command)
  | operation (now : Int64) (i : Int32) (op : String) (id : Int64)
      (word0 : word (split " " op) 0 = .ok "CLOSE_AUCTION")
      (word1 : longWord (split " " op) 1 = .ok id) (auction : k = some id) :
      TriesToClose k (.operation now i op)

section Step

variable {jvm : Jvm} {s : BankRepository} {st : BankService} {x : Action}

/-- Only the end of an auction changes the map of closed auctions. -/
theorem closedAuctions_call (h : Indexed s) (now : Int64) (op : LedgerOperation) :
    (op.run jvm now s).2.closedAuctions = s.closedAuctions ∨
    ∃ id who r, op = .closeAution id who ∧ Closes jvm id who s r := by
  have hleaves := leaves_run jvm h now op
  generalize (op.run jvm now s).2 = s' at hleaves ⊢
  cases hleaves with
  | accounts us => exact .inl rfl
  | opened user free =>
    left
    rw [BankServiceHelper.createAuction_of_free user free]
    rfl
  | placed b auction => exact .inl rfl
  | closed closes us => exact .inr ⟨_, _, _, rfl, closes⟩

/-- An action that asks for the end of an auction that it may close moves the auction to the closed
ones. -/
theorem closedAuctions_of_closes (h : Indexed st.bankRepo) {id : JLong} {who : JString}
    {r : AuctionRef} (hasks : x.asks jvm st = some (.call (.closeAution id who)))
    (closes : Closes jvm id who st.bankRepo r) (k : JLong) :
    (x.run jvm st).bankRepo.closedAuctions.lookup k =
      if id = k then some r else st.bankRepo.closedAuctions.lookup k := by
  obtain ⟨v, hrun⟩ := x.run_eq jvm st
  rw [hasks] at hrun
  -- The payment comes after the closing and touches accounts only.
  have hclosed := congrArg Prod.snd (closeAution_of_closes h closes)
  obtain ⟨us, hus⟩ := payOwner_eq (st.bankRepo.auction r).close
    ((st.bankRepo.updateAuction r AuctionEntity.close).closeAuction r)
  rw [hrun]
  show (BankServiceHelper.closeAution jvm id who st.bankRepo).2.closedAuctions.lookup k = _
  rw [hclosed, hus]
  exact h.closedAuctions_closeAuction (h.opened closes.1).1 k

/-- An auction that an action closes is one whose end the action asks for. -/
theorem closes_of_closed (h : Indexed st.bankRepo) {k : JLong} {r : AuctionRef}
    (before : st.bankRepo.closedAuctions.lookup k ≠ some r)
    (after : (x.run jvm st).bankRepo.closedAuctions.lookup k = some r) :
    ∃ who, x.asks jvm st = some (.call (.closeAution k who)) ∧ Closes jvm k who st.bankRepo r := by
  obtain ⟨v, hrun⟩ := x.run_eq jvm st
  -- Only the call of a closing adds to the closed auctions, and only the auction that it closes.
  cases hasks : x.asks jvm st with
  | none =>
    rw [hrun, hasks] at after
    exact (before after).elim
  | some a =>
    cases a with
    | register b =>
      rw [hrun, hasks] at after
      exact (before after).elim
    | call op =>
      rcases closedAuctions_call h x.time op with hsame | ⟨id, who, q, rfl, hc⟩
      · rw [hrun, hasks] at after
        change (op.run jvm x.time st.bankRepo).2.closedAuctions.lookup k = some r at after
        rw [hsame] at after
        exact (before after).elim
      · rw [closedAuctions_of_closes h hasks hc] at after
        split_ifs at after with e
        · subst e
          obtain rfl : q = r := Option.some.inj after
          exact ⟨who, rfl, hc⟩
        · exact (before after).elim

/-- What is meant to close an auction asks for its end, or for nothing. -/
theorem asks_of_triesToClose (jvm : Jvm) (st : BankService) {k : JLong} (h : TriesToClose k x) :
    x.asks jvm st = none ∨ ∃ who, x.asks jvm st = some (.call (.closeAution k who)) := by
  cases h with
  | request command who hcommand =>
    right
    exact ⟨who, by simp [Action.asks, hcommand, LedgerRequest.asks]⟩
  | operation now i op id word0 word1 auction =>
    cases hasks : (Action.operation now i op).asks jvm st with
    | none => exact .inl rfl
    | some a =>
      right
      obtain ⟨www, call, rfl, -, hcall⟩ := Action.asks_operation hasks
      -- The first word is that of no other operation.
      cases hcall with
      | createMoney old amount name => simp [word0] at name
      | transferMoney old toOld amount receiver name => simp [word0] at name
      | createAuction name => simp [word0] at name
      | createBid id amount name => simp [word0] at name
      | closeAution id' name auction' =>
        obtain rfl : id = id' := Except.ok.inj (word1.symm.trans auction')
        exact ⟨www, by rw [auction]⟩

/-- An attempt to close a closed auction leaves everything but the version alone. -/
theorem run_of_triesToClose (jvm : Jvm) (h : Indexed st.bankRepo) {k : JLong} {r : AuctionRef}
    (closed : st.bankRepo.closedAuctions.lookup k = some r) (tries : TriesToClose k x) :
    ∃ v, (x.run jvm st).bankRepo = { st.bankRepo with version := v } := by
  obtain ⟨v, hrun⟩ := x.run_eq jvm st
  refine ⟨v, hrun.trans ?_⟩
  -- An auction is not opened any more once it is closed, so the call is refused.
  rcases asks_of_triesToClose jvm st tries with hasks | ⟨who, hasks⟩
  · rw [hasks]
    rfl
  · have hsame : (BankServiceHelper.closeAution jvm k who st.bankRepo).2 = st.bankRepo := by
      rcases closeAution_cases jvm h k who with ⟨hs, -⟩ | ⟨q, hq, -⟩
      · exact hs
      · have ho := hq.1
        rw [BankRepository.findByOpenedAuctionID, (h.closed closed).2.1] at ho
        cases ho
    rw [hasks]
    show { (BankServiceHelper.closeAution jvm k who st.bankRepo).2 with version := v } = _
    rw [hsame]

end Step

/-! ## Every run -/

/-- At every point of a run an auction that is closed stays closed with its owner, its bids and its
winner; one step of the run has closed it, and that step has paid its owner; no later attempt to close
it changes a balance; and an auction that exists is never created again. -/
structure ClosedFinal (jvm : Jvm) (xs : List Action) : Prop where
  stays : ∀ ys zs k r, ys ++ zs <+: xs → (reached jvm ys).closedAuctions.lookup k = some r →
    (reached jvm (ys ++ zs)).closedAuctions.lookup k = some r ∧
    ((reached jvm (ys ++ zs)).auction r).ownerUsername = ((reached jvm ys).auction r).ownerUsername ∧
    ((reached jvm (ys ++ zs)).auction r).bids = ((reached jvm ys).auction r).bids ∧
    BankService.answer jvm (reached jvm (ys ++ zs)) (.checkWinnerBidClosedAuction k) =
      BankService.answer jvm (reached jvm ys) (.checkWinnerBidClosedAuction k)
  paid : ∀ ys k r, ys <+: xs → (reached jvm ys).closedAuctions.lookup k = some r →
    ∃ zs x, zs ++ [x] <+: ys ∧ (reached jvm zs).openedAuctions.lookup k = some r ∧
      (reached jvm (zs ++ [x])).closedAuctions.lookup k = some r ∧
      PaidOut (reached jvm zs) (reached jvm (zs ++ [x])) r
  once : ∀ ys x k r, ys ++ [x] <+: xs → (reached jvm ys).closedAuctions.lookup k = some r →
    TriesToClose k x → ∀ u, balanceOf (reached jvm (ys ++ [x])) u = balanceOf (reached jvm ys) u
  created : ∀ ys zs k r, ys ++ zs <+: xs → (reached jvm ys).auctions.lookup k = some r →
    (reached jvm (ys ++ zs)).auctions.lookup k = some r

/-- Every auction that an action may close has an owner with a balance. -/
def OwnerHasBalance (jvm : Jvm) (st : BankService) (x : Action) : Prop :=
  ∀ id who r, x.asks jvm st = some (.call (.closeAution id who)) →
    Closes jvm id who st.bankRepo r →
    (balanceOf st.bankRepo (st.bankRepo.auction r).ownerUsername).isSome

section Final

variable {jvm : Jvm}

/-- The winner of a closed auction is what its object says. -/
theorem checkWinner_eq {s : BankRepository} (h : Indexed s) {k : JLong} {r : AuctionRef}
    (closed : s.closedAuctions.lookup k = some r) :
    BankService.answer jvm s (.checkWinnerBidClosedAuction k) =
      .ok (some [.bid (s.auction r).getLastBid]) := by
  simp only [BankService.answer, BankRepository.findByAuctionID, BankRepository.findByClosedAuctionID,
    (h.closed closed).1, closed]
  rfl

/-- A closed auction stays as it is. -/
theorem closed_stays (ys zs : List Action) {k : JLong} {r : AuctionRef}
    (closed : (reached jvm ys).closedAuctions.lookup k = some r) :
    (reached jvm (ys ++ zs)).closedAuctions.lookup k = some r ∧
    ((reached jvm (ys ++ zs)).auction r).ownerUsername = ((reached jvm ys).auction r).ownerUsername ∧
    ((reached jvm (ys ++ zs)).auction r).bids = ((reached jvm ys).auction r).bids ∧
    BankService.answer jvm (reached jvm (ys ++ zs)) (.checkWinnerBidClosedAuction k) =
      BankService.answer jvm (reached jvm ys) (.checkWinnerBidClosedAuction k) := by
  obtain ⟨hclosed, hobject⟩ := (Continues.of_run jvm ys zs).closed k r closed
  refine ⟨hclosed, by rw [hobject], by rw [hobject], ?_⟩
  rw [checkWinner_eq (reached_indexed _) hclosed, checkWinner_eq (reached_indexed _) closed, hobject]

/-- A step that closes an auction pays its owner exactly when the owner has a balance. -/
theorem paidOut_iff {ys : List Action} {x : Action} {id : JLong} {who : JString} {r : AuctionRef}
    (hasks : x.asks jvm (BankService.new.runAll jvm ys) = some (.call (.closeAution id who)))
    (closes : Closes jvm id who (reached jvm ys) r) :
    PaidOut (reached jvm ys) (reached jvm (ys ++ [x])) r ↔
      (balanceOf (reached jvm ys) ((reached jvm ys).auction r).ownerUsername).isSome := by
  -- Without a balance there is nothing that the amount could be added to.
  have hbalance : balanceOf (reached jvm (ys ++ [x])) ((reached jvm ys).auction r).ownerUsername =
      (balanceOf (reached jvm ys) ((reached jvm ys).auction r).ownerUsername).map
        (· + ((reached jvm ys).auction r).getLastBidAmount) := by
    rw [reached_concat, balanceOf_closeAution (reached_indexed ys) hasks closes]
    simp [reached]
  rw [PaidOut, hbalance]
  constructor
  · rintro ⟨v, hv, -⟩
    simp [hv]
  · intro h
    obtain ⟨v, hv⟩ := Option.isSome_iff_exists.mp h
    exact ⟨v, hv, by simp [hv]⟩

/-- When every owner has a balance, the step that closed an auction has paid its owner. -/
theorem paid_of_ownerHasBalance {xs : List Action}
    (h : ∀ ys x, ys ++ [x] <+: xs → OwnerHasBalance jvm (BankService.new.runAll jvm ys) x)
    (ys : List Action) {k : JLong} {r : AuctionRef} (hys : ys <+: xs)
    (closed : (reached jvm ys).closedAuctions.lookup k = some r) :
    ∃ zs x, zs ++ [x] <+: ys ∧ (reached jvm zs).openedAuctions.lookup k = some r ∧
      (reached jvm (zs ++ [x])).closedAuctions.lookup k = some r ∧
      PaidOut (reached jvm zs) (reached jvm (zs ++ [x])) r := by
  -- On the points of the run: the auction was closed before the last step, or by it.
  induction ys using List.reverseRecOn with
  | nil => simp [reached, BankService.runAll, BankService.new, BankRepository.new] at closed
  | append_singleton ys x ih =>
    by_cases before : (reached jvm ys).closedAuctions.lookup k = some r
    · obtain ⟨zs, y, hzs, hrest⟩ := ih ((List.prefix_append _ _).trans hys) before
      exact ⟨zs, y, hzs.trans (List.prefix_append _ _), hrest⟩
    · rw [reached_concat] at closed
      obtain ⟨who, hasks, hcloses⟩ := closes_of_closed (reached_indexed ys) before closed
      refine ⟨ys, x, List.prefix_refl _, hcloses.1, by rw [reached_concat]; exact closed, ?_⟩
      exact (paidOut_iff hasks hcloses).mpr (h ys x hys k who r hasks hcloses)

/-- When the step that closed an auction has always paid its owner, every owner has a balance. -/
theorem ownerHasBalance_of_paid {xs : List Action} (h : ClosedFinal jvm xs) {ys : List Action}
    {x : Action} (hx : ys ++ [x] <+: xs) : OwnerHasBalance jvm (BankService.new.runAll jvm ys) x := by
  intro id who r hasks hcloses
  have hrun := closedAuctions_of_closes (reached_indexed ys) hasks hcloses id
  rw [if_pos rfl, ← reached_concat] at hrun
  obtain ⟨zs, y, hzs, hopened, hclosed, hpaid⟩ := h.paid (ys ++ [x]) id r hx hrun
  -- An earlier step cannot have closed the auction, which is still opened.
  have heq : zs ++ [y] = ys ++ [x] := by
    rcases List.prefix_concat_iff.mp hzs with e | hprefix
    · exact e
    · obtain ⟨ws, rfl⟩ := hprefix
      have hstill := (closed_stays (zs ++ [y]) ws hclosed).1
      have hopen : (reached jvm (zs ++ [y] ++ ws)).openedAuctions.lookup id = some r := hcloses.1
      rw [((reached_indexed _).closed hstill).2.1] at hopen
      cases hopen
  obtain ⟨rfl, hxy⟩ := List.append_inj' heq rfl
  cases hxy
  exact (paidOut_iff hasks hcloses).mp hpaid

end Final

/-- **Closed is final:** in a run from the empty repository, an auction that is closed stays closed
with its owner, its bids and its winner, has been paid out exactly once, and no auction is created
twice, exactly when every step of the run that closes an auction meets an owner with a balance. What is
paid out is what `getLastBidAmount` of the code answers (`PaidOut`); whether that is the highest bid is
not judged here. -/
theorem closed_final_iff (jvm : Jvm) (xs : List Action) :
    ClosedFinal jvm xs ↔
      ∀ ys x, ys ++ [x] <+: xs → OwnerHasBalance jvm (BankService.new.runAll jvm ys) x := by
  refine ⟨fun h ys x => ownerHasBalance_of_paid h, fun h => ?_⟩
  refine ⟨fun ys zs k r _ => closed_stays ys zs, fun ys k r => paid_of_ownerHasBalance h ys, ?_,
    fun ys zs k r _ => (Continues.of_run jvm ys zs).listed k r⟩
  intro ys x k r _ closed tries u
  obtain ⟨v, hv⟩ := run_of_triesToClose jvm (reached_indexed ys) closed tries
  rw [reached_concat, hv]
  rfl

/-- The requests of `alice`, who has no amount and opens the auction 0, and of `bob`, who bids 5. -/
def unpaidBid : List Action :=
  [.ordered (Proxy.registerUser (some "alice") (some "secret") none none),
    .ordered (Proxy.registerUser (some "bob") (some "secret") (some 20) none),
    .ordered (Proxy.createAuction (some "alice") (some 0)),
    .ordered (Proxy.createSmartContract (some "bob") []), .operation 0 0 "BID 5 0"]

/-- The request of `alice` to close the auction. -/
def unpaidClose : Action := .ordered (Proxy.closeAuction (some "alice") (some 0))

/-- **A closed auction that is never paid:** the auction 0 is closed with the bid of `bob` as the
winner, whose 5 are frozen for good, and nothing has been paid to `alice`. -/
theorem closed_without_payout :
    (reached (bidJvm 0) unpaidBid).openedAuctions.lookup (some 0) = some 0 ∧
      (reached (bidJvm 0) (unpaidBid ++ [unpaidClose])).closedAuctions.lookup (some 0) = some 0 ∧
      BankService.answer (bidJvm 0) (reached (bidJvm 0) (unpaidBid ++ [unpaidClose]))
        (.checkWinnerBidClosedAuction (some 0)) = .ok (some [.bid (some ⟨0, some "bob", 5, 0⟩)]) ∧
      balanceOf (reached (bidJvm 0) (unpaidBid ++ [unpaidClose])) (some "bob") = some 15 ∧
      balanceOf (reached (bidJvm 0) (unpaidBid ++ [unpaidClose])) (some "alice") = none ∧
      ¬ ClosedFinal (bidJvm 0) (unpaidBid ++ [unpaidClose]) := by
  refine ⟨by decide, by decide, by decide, by decide, by decide, fun h => ?_⟩
  have hbalance := ownerHasBalance_of_paid h (List.prefix_refl _) (some 0) (some "alice") 0 rfl
    ⟨by decide, _, rfl, by decide⟩
  revert hbalance
  decide

end NovaBank.Ledger
