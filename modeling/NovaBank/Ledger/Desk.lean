import NovaBank.Common.Cost
import NovaBank.Ledger.Closing
import NovaBank.Ledger.Sessions

/-!
# Closing an auction over the REST interface

`closeAuction` of `csd/src/main/java/fct/unl/pt/csd/Controller/RestAPIController.java`, from the login to
the response. What a login allows was decided when the account was registered, and what the auction is at
the time of the call decides the rest. `close_after_login_iff` puts both together: it says which logins,
after whatever has happened in between, are answered "Auction Closed". `auction_closed_once`: in a whole run
of logins, calls and steps of the replicas, one call at most is answered so for each auction.
-/

namespace NovaBank.Proxy

open Java Replica

/-- The text of a plain JSON value, by `toString()`. -/
def scalarText : Scalar → String
  | .text s => s
  | .number v => Long.toText v
  | .bool b => if b then "true" else "false"

/-- The response of `DELETE /closeauction`. -/
inductive CloseResponse where
  /-- `OK`, "Auction Closed". -/
  | closed
  /-- `FORBIDDEN`, with the error. -/
  | forbidden (message : String)
  deriving DecidableEq

/-- `invokeCloseAuction(who, auctionID)`, which asks for the length of the reply without a test for
`null`. -/
def ClientRequestHandler.invokeCloseAuction : Reply → Except JavaException JSONObject
  | none => .error .nullPointer
  | some os => readJson os

/-- What `closeAuction(bearer, id)` returns for the reply of the replicas. -/
def RestAPIController.closeAuction (reply : Reply) : Except JavaException CloseResponse := do
  let j ← ClientRequestHandler.invokeCloseAuction reply
  match j.get "error" with
  | some message => return .forbidden (scalarText message)
  | none => return .closed

end NovaBank.Proxy

namespace NovaBank.Ledger

open Java Replica Money Proxy Spec

/-- The response to `DELETE /closeauction` with a header and an id, if the handler gets to it. -/
def Gateway.closeAuction (sec : WebSecurity) (jvm : Jvm) (now later : Int64) (header : JString)
    (auction : Int64) (g : Gateway) : Option (Except JavaException CloseResponse) :=
  match sec.handle now later header (.closeAuction auction) with
  | .actsFor u =>
    let request := (TokenCall.closeAuction auction).request u
    some (RestAPIController.closeAuction (received (g.service.access jvm (request.access id)).1))
  | .denied | .failed => none

section Closing

variable {jvm : Jvm}

/-- What the proxy gets for `CLOSE_AUCTION`. -/
theorem received_closeAuction {st : BankService} (h : Indexed st.bankRepo) (who : JString) (id : JLong) :
    received (st.access jvm (.ordered (closeAuction who id))).1 =
      (((bank st.bankRepo).closeAution jvm id who).1.toOption).bind BankService.jsonReply := by
  have hreply : (office st).reply jvm (.ordered (closeAuction who id)) =
      some (Office.settle (((bank st.bankRepo).closeAution jvm id who).1.map BankService.jsonReply)) := by
    simp only [Office.reply, Office.ordered, decodeOrdered_closeAuction]
    rfl
  rw [reply_refines h hreply]
  cases ((bank st.bankRepo).closeAution jvm id who).1 with
  | ok j => rfl
  | error e =>
    simp only [Except.map, Office.settle]
    split_ifs <;> rfl

/-- The response for an error of the replicas. -/
theorem closeAuction_error (message : String) :
    RestAPIController.closeAuction (BankService.jsonReply (JSONObject.error message)) =
      .ok (.forbidden message) := rfl

/-- The response for the success of the replicas. -/
theorem closeAuction_success (id : JLong) :
    RestAPIController.closeAuction
      (BankService.jsonReply (JSONObject.success.put "id" (id.map .number))) = .ok .closed := by
  cases id <;> rfl

/-- When the bank closes an auction. -/
theorem closed_iff (B : Bank) (id : JLong) (who : JString) :
    RestAPIController.closeAuction (((B.closeAution jvm id who).1.toOption).bind BankService.jsonReply) =
        .ok .closed ↔
      ∃ h sale v, B.holders who = some h ∧ B.sales id = some sale ∧ sale.closed = false ∧
        sale.mayClose jvm h who = .ok true ∧ B.balance sale.owner = .ok v := by
  have herror : ∀ message, RestAPIController.closeAuction
      (((Except.ok (JSONObject.error message) : Except JavaException JSONObject).toOption).bind
        BankService.jsonReply) ≠ .ok .closed := by
    intro message h
    rw [Except.toOption, Option.bind_some, closeAuction_error] at h
    cases h
  unfold Bank.closeAution
  cases hh : B.holders who with
  | none => exact iff_of_false (herror _) (by rintro ⟨h, sale, v, ⟨⟩, -⟩)
  | some h =>
    cases hs : B.sales id with
    | none => exact iff_of_false (herror _) (by rintro ⟨h, sale, v, -, ⟨⟩, -⟩)
    | some sale =>
      dsimp only
      split_ifs with hclosed
      · refine iff_of_false (herror _) ?_
        rintro ⟨h, sale, v, -, ⟨⟩, hopen, -⟩
        rw [hclosed] at hopen
        cases hopen
      · have hopen : sale.closed = false := Bool.eq_false_iff.mpr hclosed
        cases hmay : sale.mayClose jvm h who with
        | error e =>
          refine iff_of_false (by rintro ⟨⟩) ?_
          rintro ⟨h, sale, v, ⟨⟩, ⟨⟩, -, hmay', -⟩
          rw [hmay] at hmay'
          cases hmay'
        | ok may =>
          cases may with
          | false =>
            refine iff_of_false (herror _) ?_
            rintro ⟨h, sale, v, ⟨⟩, ⟨⟩, -, hmay', -⟩
            rw [hmay] at hmay'
            cases hmay'
          | true =>
            -- The auction is closed by now, which leaves the balances as they are.
            have hbalance : (B.list id sale.close).balance sale.owner = B.balance sale.owner := rfl
            simp only [Bank.payOwner, hbalance]
            cases hv : B.balance sale.owner with
            | error e =>
              refine iff_of_false (by rintro ⟨⟩) ?_
              rintro ⟨h, sale, v, ⟨⟩, ⟨⟩, -, -, hv'⟩
              rw [hv] at hv'
              cases hv'
            | ok v =>
              exact iff_of_true (closeAuction_success id) ⟨h, sale, v, rfl, rfl, hopen, hmay, hv⟩

/-- Who may close an auction. -/
theorem mayClose_iff {sale : Sale} {h : Holder} {who : JString} :
    sale.mayClose jvm h who = .ok true ↔ ∃ owner, sale.owner = some owner ∧
      (jvm.equalsIgnoreCase owner who = true ∨ "ROLE_AUCTION_MAKER" ∈ h.getRoles) := by
  unfold Sale.mayClose Sale.isOwner
  cases sale.owner with
  | none => simp [Except.map]
  | some owner => simp [Except.map]

end Closing

section Events

variable {sec : WebSecurity} {jvm : Jvm}

/-- A user is still there after further events, with the same roles. -/
theorem holder_after {es fs : List Event} {u : JString} {c : BankEntity}
    (user : (Gateway.after sec jvm es).service.bankRepo.findByUserName u = some c) :
    ∃ h, (bank (Gateway.after sec jvm (es ++ fs)).service.bankRepo).holders u = some h ∧
      h.getRoles = c.getRoles := by
  obtain ⟨c', hc', hsame⟩ := UsersKept.of_updates (after_indexed es) (after_updates es fs) u c user
  refine ⟨holder c', by rw [bank_holders, hc', Option.map_some], ?_⟩
  rw [getRoles_holder, BankEntity.getRoles, hsame.roles, BankEntity.getRoles]

/-- The response to a handler that acts for `u`. -/
theorem Gateway.closeAuction_eq {g : Gateway} (h : Indexed g.service.bankRepo)
    {now later auction : Int64} {header u : JString}
    (acts : sec.handle now later header (.closeAuction auction) = .actsFor u) :
    g.closeAuction sec jvm now later header auction =
      some (RestAPIController.closeAuction
        ((((bank g.service.bankRepo).closeAution jvm (some auction) u).1.toOption).bind
          BankService.jsonReply)) := by
  rw [← received_closeAuction h]
  simp only [Gateway.closeAuction, acts]
  rfl

end Events

/-- **Who can close an auction:** somebody logs in, then anything happens, and then `DELETE /closeauction`
is called with the header of the login. It is answered "Auction Closed" exactly when the login was for a
user with a matching password and a complete account without a blank role, the name is not empty, the token
has not expired, the auction is open at the time of the call, the user is its owner, up to the case of
letters, or was registered with `ROLE_AUCTION_MAKER`, and the owner has a balance that can be paid to. -/
theorem close_after_login_iff (sec : WebSecurity) (jvm : Jvm) (es fs : List Event)
    (time now later auction : Int64) (body : LoginBody) :
    let bankThen := bank (Gateway.after sec jvm (es ++ .login time body :: fs)).service.bankRepo
    (∃ header,
      (JwtAuthenticationFilter.login sec jvm time body (Gateway.after sec jvm es).service).1 =
        some header ∧
      (Gateway.after sec jvm (es ++ .login time body :: fs)).closeAuction sec jvm now later (some header)
        auction = some (.ok .closed)) ↔
    ∃ u c sale owner v, LogsIn sec jvm (Gateway.after sec jvm es).service.bankRepo body u c ∧ u ≠ "" ∧
      now ≤ inSeconds (time + 864000000) ∧ later ≤ inSeconds (time + 864000000) ∧
      bankThen.sales (some auction) = some sale ∧ sale.closed = false ∧ sale.owner = some owner ∧
      (jvm.equalsIgnoreCase owner (some u) = true ∨ "ROLE_AUCTION_MAKER" ∈ c.getRoles) ∧
      bankThen.balance (some owner) = .ok v := by
  intro bankThen
  -- What the account allows at the time of the call is what it allowed at the login.
  have hmayClose : ∀ {u : String} {c : BankEntity} {h : Holder} {sale : Sale},
      LogsIn sec jvm (Gateway.after sec jvm es).service.bankRepo body u c →
      bankThen.holders (some u) = some h →
      (sale.mayClose jvm h (some u) = .ok true ↔ ∃ owner, sale.owner = some owner ∧
        (jvm.equalsIgnoreCase owner (some u) = true ∨ "ROLE_AUCTION_MAKER" ∈ c.getRoles)) := by
    intro u c h sale hlogs hh
    obtain ⟨h', hh', hroles⟩ := @holder_after sec jvm es (.login time body :: fs) _ _ hlogs.user
    obtain rfl : h = h' := Option.some.inj (hh.symm.trans hh')
    rw [mayClose_iff, hroles]
  constructor
  · rintro ⟨header, hheader, hresponse⟩
    obtain ⟨u, c, hlogs, rfl⟩ := (login_after_iff es time body header).mp hheader
    cases hhandle : sec.handle now later
        (some (SecurityConstants.tokenStart ++ tokenFor sec jvm time u c)) (.closeAuction auction) with
    | denied | failed =>
      simp only [Gateway.closeAuction, hhandle] at hresponse
      cases hresponse
    | actsFor w =>
      obtain ⟨rfl, hu, -, hnow, hlater, -⟩ :=
        (handle_tokenFor hlogs (removeAll_token _ _ _) now later (.closeAuction auction) w).mp hhandle
      rw [Gateway.closeAuction_eq (after_indexed _) hhandle] at hresponse
      obtain ⟨h, sale, v, hh, hsale, hopen, hmay, hv⟩ :=
        (closed_iff _ _ _).mp (Option.some.inj hresponse)
      obtain ⟨owner, howner, hmay⟩ := (hmayClose hlogs hh).mp hmay
      rw [howner] at hv
      exact ⟨u, c, sale, owner, v, hlogs, hu, hnow, hlater, hsale, hopen, howner, hmay, hv⟩
  · rintro ⟨u, c, sale, owner, v, hlogs, hu, hnow, hlater, hsale, hopen, howner, hmay, hv⟩
    refine ⟨_, (login_after_iff es time body _).mpr ⟨u, c, hlogs, rfl⟩, ?_⟩
    have htoken : removeAll SecurityConstants.tokenStart
        (SecurityConstants.tokenStart ++ tokenFor sec jvm time u c) = tokenFor sec jvm time u c :=
      removeAll_token _ _ _
    have hacts := (handle_tokenFor hlogs htoken now later (.closeAuction auction) (some u)).mpr
      ⟨rfl, hu, startsWith_append _ _, hnow, hlater, by simp⟩
    obtain ⟨h, hh, -⟩ := @holder_after sec jvm es (.login time body :: fs) _ _ hlogs.user
    rw [← howner] at hv
    have hclosed := (closed_iff bankThen (some auction) (some u)).mpr
      ⟨h, sale, v, hh, hsale, hopen, (hmayClose hlogs hh).mpr ⟨owner, howner, hmay⟩, hv⟩
    rw [Gateway.closeAuction_eq (after_indexed _) hacts, hclosed]

/-! ## Closed once -/

/-- Whether an auction has been closed. -/
def ended (B : Bank) (id : JLong) : Bool := ((B.sales id).map Sale.closed).getD false

section Once

variable {sec : WebSecurity} {jvm : Jvm} {s s' : BankRepository}

/-- An auction that has been closed stays closed. -/
theorem ended_of_updates (h : Indexed s) (hu : Updates s s') {id : JLong}
    (hended : ended (bank s) id = true) : ended (bank s') id = true := by
  unfold ended at hended ⊢
  rw [bank_sales, BankRepository.findByAuctionID] at hended ⊢
  -- A closed auction stays listed, and its object stays closed.
  cases hr : s.auctions.lookup id with
  | none =>
    rw [hr] at hended
    cases hended
  | some r =>
    rw [hr] at hended
    have hclosed : (s.auction r).isClosed = true := hended
    have hcontinues := Continues.of_updates h hu
    have hlookup : s.closedAuctions.lookup id = some r := by
      rcases h.covered hr with ho | hc
      · rw [(h.opened ho).2.2] at hclosed
        cases hclosed
      · exact hc
    rw [hcontinues.listed id r hr, Option.map_some, (hcontinues.closed id r hlookup).2]
    exact hclosed

/-- A response that the auction was closed: it was open before and is closed after. -/
theorem ended_of_closed {B : Bank} {id : JLong} {who : JString}
    (h : RestAPIController.closeAuction
      (((B.closeAution jvm id who).1.toOption).bind BankService.jsonReply) = .ok .closed) :
    ended B id = false ∧ ended (B.closeAution jvm id who).2 id = true := by
  -- The status is that of a closing which has gone through.
  obtain ⟨h, sale, v, hh, hsale, hopen, hmay, hv⟩ := (closed_iff B id who).mp h
  have hbalance : (B.list id sale.close).balance sale.owner = .ok v := hv
  have hafter : (B.closeAution jvm id who).2 =
      (B.list id sale.close).assign sale.owner (sale.prize id + v) := by
    simp only [Bank.closeAution, hh, hsale, hopen, hmay, Bool.false_eq_true, if_false, Bank.payOwner,
      hbalance]
  constructor
  · unfold ended
    rw [hsale]
    exact hopen
  · unfold ended
    rw [hafter]
    simp [Bank.assign, Bank.list, Sale.close]

/-- How many auctions with the id an event is answered to have closed: one or none. -/
def closings (sec : WebSecurity) (jvm : Jvm) (auction : Int64) (g : Gateway) : Event → ℕ
  | .call now later header (.closeAuction k) =>
    if k = auction ∧ g.closeAuction sec jvm now later header k = some (.ok .closed) then 1 else 0
  | _ => 0

/-- How many more times the auction can be closed. -/
def closable (auction : Int64) (g : Gateway) : ℕ :=
  if ended (bank g.service.bankRepo) (some auction) then 0 else 1

/-- A call that is answered to have closed the auction. -/
theorem closable_of_closed {g : Gateway} (h : Indexed g.service.bankRepo) {now later auction : Int64}
    {header : JString} (hclosed : g.closeAuction sec jvm now later header auction = some (.ok .closed)) :
    closable auction g = 1 ∧
      closable auction ((Event.call now later header (.closeAuction auction)).run sec jvm g) = 0 := by
  -- Only a call that gets past the filter reaches the replica.
  cases hhandle : sec.handle now later header (.closeAuction auction) with
  | denied | failed =>
    simp only [Gateway.closeAuction, hhandle] at hclosed
    cases hclosed
  | actsFor u =>
    rw [Gateway.closeAuction_eq h hhandle] at hclosed
    obtain ⟨hbefore, hafter⟩ := ended_of_closed (Option.some.inj hclosed)
    have hrun : bank ((Event.call now later header (.closeAuction auction)).run sec jvm
        g).service.bankRepo = ((bank g.service.bankRepo).closeAution jvm (some auction) u).2 := by
      have hordered := (@ordered_refines jvm g.service h (closeAuction u (some auction))).2
      simp only [Office.ordered, decodeOrdered_closeAuction] at hordered
      simp only [Event.run, hhandle]
      exact congrArg Office.bank hordered
    unfold closable
    rw [hrun, hbefore, hafter]
    exact ⟨rfl, rfl⟩

/-- What an event closes can be closed once less. -/
theorem closings_le {g : Gateway} (h : Indexed g.service.bankRepo) (auction : Int64) (e : Event) :
    closings sec jvm auction g e + closable auction (e.run sec jvm g) ≤ closable auction g := by
  -- No event opens an auction that was closed.
  have hkept : closable auction (e.run sec jvm g) ≤ closable auction g := by
    unfold closable
    split_ifs with hafter hbefore hbefore
    · exact Nat.le_refl 0
    · exact Nat.zero_le 1
    · exact absurd (ended_of_updates h (run_updates g e) hbefore) hafter
    · exact Nat.le_refl 1
  -- A closing uses up the one that is left.
  by_cases hone : closings sec jvm auction g e = 0
  · omega
  · cases e with
    | action x => exact absurd rfl hone
    | login time body => exact absurd rfl hone
    | call now later header c =>
      cases c with
      | closeAuction k =>
        simp only [closings] at hone ⊢
        split_ifs at hone ⊢ with hclosed
        · obtain ⟨rfl, hclosed⟩ := hclosed
          obtain ⟨hbefore, hafter⟩ := closable_of_closed h hclosed
          omega
        · exact absurd rfl hone
      | test | smartContract data | getBidFromUser | createBid data => exact absurd rfl hone

end Once

/-- **An auction is closed once:** in every run of logins, of calls with any headers and of other steps of
the replicas, with contracts that close auctions, too, at most one call for an auction is answered "Auction
Closed". -/
theorem auction_closed_once (sec : WebSecurity) (jvm : Jvm) (auction : Int64) (es : List Event) :
    Cost.total (fun g e => Event.run sec jvm g e) (closings sec jvm auction) ⟨BankService.new, []⟩ es ≤ 1 := by
  have hbound := @Cost.total_le_potential Gateway Event (fun g e => Event.run sec jvm g e)
    (closings sec jvm auction) (closable auction) (fun g => Indexed g.service.bankRepo)
    (fun g e h => h.updates (run_updates g e)) (fun g e h => closings_le h auction e)
    ⟨BankService.new, []⟩ Indexed.new es
  have hstart : closable auction ⟨BankService.new, []⟩ = 1 := rfl
  omega

end NovaBank.Ledger
