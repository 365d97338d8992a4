import NovaBank.Common.Footprint
import NovaBank.Proxy.Commands
import NovaBank.Spec.Refinement

/-!
# Requests about different things commute

A request on the ledger is local to the accounts of the users that it names and to the auction that it
names; closing an auction is local to the account of its owner, too (`touches`, `execute_local`). So
two requests with nothing in common may be ordered either way, at any point of any run
(`requests_commute`): each gets the reply that it would have got alone, and the replica is the same
office from then on.
-/

namespace NovaBank.Spec

open Java Replica Footprint

/-! ## Places -/

/-- A place of the bank: the account of a user, or an auction. -/
inductive Place where
  | user (u : JString)
  | auction (k : JLong)

/-- What a bank holds in a place. -/
def look (B : Bank) : Place → Option Holder ⊕ Option Sale
  | .user u => .inl (B.holders u)
  | .auction k => .inr (B.sales k)

/-- Two banks are equal when all their places are. -/
theorem ext_look {B C : Bank} (h : ∀ p, look B p = look C p) : B = C := by
  apply Bank.ext
  · funext u
    exact Sum.inl.inj (h (.user u))
  · funext k
    exact Sum.inr.inj (h (.auction k))

/-- The places that a request looks at or changes. -/
def touches (r : LedgerRequest) (B : Bank) : Set Place :=
  match r with
  | .registerUser username _ => {.user username}
  | .createMoney who _ => {.user who}
  | .transferMoney sender _ receiver _ _ _ => {.user sender, .user receiver}
  | .createAuction who auctionID => {.user who, .auction auctionID}
  -- The owner is paid.
  | .closeAuction who auctionID =>
    {p | p = .user who ∨ p = .auction auctionID ∨
      ∃ sale, B.sales auctionID = some sale ∧ p = .user sale.owner}

section Local

variable {jvm : Jvm} {F : Set Place} {B C : Bank}

/-- Banks that agree on a user have the same account. -/
theorem AgreeOn.holders (h : AgreeOn look F B C) {u : JString} (hu : .user u ∈ F) :
    C.holders u = B.holders u := Sum.inl.inj (h _ hu).symm

/-- Banks that agree on an auction have the same one. -/
theorem AgreeOn.sales (h : AgreeOn look F B C) {k : JLong} (hk : .auction k ∈ F) :
    C.sales k = B.sales k := Sum.inr.inj (h _ hk).symm

/-- Banks that agree on a user have the same balance. -/
theorem AgreeOn.balance (h : AgreeOn look F B C) {u : JString} (hu : .user u ∈ F) :
    C.balance u = B.balance u := by
  rw [Bank.balance, Bank.balance, Bank.user, Bank.user, AgreeOn.holders h hu]

/-- Two banks that were changed alike: they agree on the places of a set, and the first one holds what
`B` held in all other places. -/
structure Follows (F : Set Place) (B B' C' : Bank) : Prop where
  agree : AgreeOn look F B' C'
  frame : ∀ p ∉ F, look B' p = look B p

/-- At the start, the second bank follows. -/
theorem Follows.refl (h : AgreeOn look F B C) : Follows F B B C := ⟨h, fun _ _ => rfl⟩

variable {B' C' : Bank}

/-- An account of the set is written. -/
theorem Follows.holders (h : Follows F B B' C') {u : JString} (hu : .user u ∈ F) (x : Option Holder) :
    Follows F B { B' with holders := Function.update B'.holders u x }
      { C' with holders := Function.update C'.holders u x } := by
  -- The changed entry agrees by itself, and no place outside the footprint is an account of this name.
  constructor
  · intro p hp
    cases p with
    | user w =>
      simp only [look, Function.update_apply, Sum.inl.injEq]
      split_ifs
      · rfl
      · exact Sum.inl.inj (h.agree _ hp)
    | auction k => exact h.agree _ hp
  · intro p hp
    rw [← h.frame p hp]
    cases p with
    | user w =>
      have hne : w ≠ u := by
        rintro rfl
        exact hp hu
      simp only [look, Function.update_of_ne hne]
    | auction k => rfl

/-- It follows an enrolment. -/
theorem Follows.enrol (h : Follows F B B' C') {u : JString} (hu : .user u ∈ F) (x : Holder) :
    Follows F B (B'.enrol u x) (C'.enrol u x) := h.holders hu (some x)

/-- It follows a new balance. -/
theorem Follows.assign (h : Follows F B B' C') {u : JString} (hu : .user u ∈ F) (v : Int64) :
    Follows F B (B'.assign u v) (C'.assign u v) := by
  have hsame : C'.holders u = B'.holders u := AgreeOn.holders h.agree hu
  unfold Bank.assign
  rw [hsame]
  exact h.holders hu _

/-- An auction of the set is written. -/
theorem Follows.list (h : Follows F B B' C') {id : JLong} (hid : .auction id ∈ F) (x : Sale) :
    Follows F B (B'.list id x) (C'.list id x) := by
  -- The changed entry agrees by itself, and no place outside the footprint is an auction of this id.
  constructor
  · intro p hp
    cases p with
    | user w => exact h.agree _ hp
    | auction k =>
      simp only [look, Bank.list, Function.update_apply, Sum.inr.injEq]
      split_ifs
      · rfl
      · exact Sum.inr.inj (h.agree _ hp)
  · intro p hp
    rw [← h.frame p hp]
    cases p with
    | user w => rfl
    | auction k =>
      have hne : k ≠ id := by
        rintro rfl
        exact hp hid
      simp only [look, Bank.list, Function.update_of_ne hne]

/-- Two runs of an operation with the same result that change two banks alike. -/
structure Tracks {α : Type} (F : Set Place) (B : Bank) (x y : α × Bank) : Prop where
  result : y.1 = x.1
  state : Follows F B x.2 y.2

/-- A request that changes nothing is tracked if the answers are the same. -/
theorem Tracks.same {α : Type} (h : AgreeOn look F B C) (r : α) : Tracks F B (r, B) (r, C) :=
  ⟨rfl, .refl h⟩

/-- What is done with the result does not matter. -/
theorem Tracks.map {α β : Type} {x y : α × Bank} (h : Tracks F B x y) (f : α → β) :
    Tracks F B (f x.1, x.2) (f y.1, y.2) := ⟨congrArg f h.result, h.state⟩

/-! ## The requests are local -/

/-- A written balance depends on its user only. -/
theorem createMoney_tracks (h : AgreeOn look F B C) {who : JString} (hwho : .user who ∈ F)
    (amount : Int64) : Tracks F B (B.createMoney who amount) (C.createMoney who amount) := by
  unfold Bank.createMoney
  rw [AgreeOn.holders h hwho]
  cases B.holders who with
  | none => exact .same h _
  | some x => exact ⟨rfl, (Follows.refl h).assign hwho amount⟩

/-- A written transfer depends on its two users only. -/
theorem transferMoney_tracks (h : AgreeOn look F B C) {sender receiver : JString}
    (hsender : .user sender ∈ F) (hreceiver : .user receiver ∈ F) (fromAmount toAmount : Int64) :
    Tracks F B (B.transferMoney sender fromAmount receiver toAmount)
      (C.transferMoney sender fromAmount receiver toAmount) := by
  unfold Bank.transferMoney
  rw [AgreeOn.holders h hsender, AgreeOn.holders h hreceiver]
  cases B.holders sender with
  | none => exact .same h _
  | some x =>
    have hfirst := (Follows.refl h).assign hsender fromAmount
    cases B.holders receiver with
    | none => exact ⟨rfl, hfirst⟩
    | some y => exact ⟨rfl, hfirst.assign hreceiver toAmount⟩

/-- A new auction depends on the user and the id. -/
theorem createAuction_tracks (h : AgreeOn look F B C) {who : JString} {id : JLong}
    (hwho : .user who ∈ F) (hid : .auction id ∈ F) :
    Tracks F B (B.createAuction id who) (C.createAuction id who) := by
  unfold Bank.createAuction
  rw [AgreeOn.holders h hwho, AgreeOn.sales h hid]
  cases B.holders who with
  | none => exact .same h _
  | some x =>
    cases B.sales id with
    | some sale => exact .same h _
    | none => exact ⟨rfl, (Follows.refl h).list hid _⟩

/-- The pay-out, once the auction is closed. -/
theorem payOwner_tracks (h : Follows F B B' C') {sale : Sale} (howner : .user sale.owner ∈ F)
    (id : JLong) : Tracks F B (B'.payOwner id sale) (C'.payOwner id sale) := by
  unfold Bank.payOwner
  rw [AgreeOn.balance h.agree howner]
  cases B'.balance sale.owner with
  | error e => exact ⟨rfl, h⟩
  | ok v => exact ⟨rfl, h.assign howner _⟩

/-- A closing depends on the user, the auction, and the owner to whom it pays. -/
theorem closeAution_tracks (h : AgreeOn look F B C) {who : JString} {id : JLong}
    (hwho : .user who ∈ F) (hid : .auction id ∈ F)
    (howner : ∀ sale, B.sales id = some sale → .user sale.owner ∈ F) :
    Tracks F B (B.closeAution jvm id who) (C.closeAution jvm id who) := by
  unfold Bank.closeAution
  -- Both banks find the same account and the same auction, so they take the same branch.
  rw [AgreeOn.holders h hwho, AgreeOn.sales h hid]
  cases B.holders who with
  | none => exact .same h _
  | some x =>
    cases hsale : B.sales id with
    | none => exact .same h _
    | some sale =>
      dsimp only
      split_ifs
      · exact .same h _
      · cases sale.mayClose jvm x who with
        | error e => exact .same h _
        | ok may =>
          cases may with
          | false => exact .same h _
          | true =>
            exact (payOwner_tracks ((Follows.refl h).list hid _) (howner sale hsale) id).map
              (Except.map _)

/-- A deposit depends on its user. -/
theorem deposit_tracks (h : AgreeOn look F B C) {who : JString} (hwho : .user who ∈ F)
    (v original amount : Int64) :
    Tracks F B (B.deposit who v original amount) (C.deposit who v original amount) := by
  unfold Bank.deposit
  dsimp only
  split_ifs
  any_goals exact .same h _
  all_goals
    exact (createMoney_tracks h hwho amount).map fun j => Except.ok (BankService.jsonReply j)

/-- A transfer depends on its two users. -/
theorem transfer_tracks (h : AgreeOn look F B C) {sender receiver : JString}
    (hsender : .user sender ∈ F) (hreceiver : .user receiver ∈ F)
    (fromSaldo toSaldo fromAmount toAmount : Int64) (x y : Holder) :
    Tracks F B (B.transfer sender receiver fromSaldo toSaldo fromAmount toAmount x y)
      (C.transfer sender receiver fromSaldo toSaldo fromAmount toAmount x y) := by
  unfold Bank.transfer
  dsimp only
  -- A `null` amount throws in both banks alike.
  cases x.amount with
  | none => exact .same h _
  | some v =>
    cases y.amount with
    | none =>
      dsimp only
      split_ifs <;> exact .same h _
    | some w =>
      dsimp only
      split_ifs
      · exact (transferMoney_tracks h hsender hreceiver fromAmount toAmount).map
          (Except.map BankService.jsonReply)
      · exact .same h _

/-- A request looks only at the places that it touches, and changes no other place. -/
theorem execute_tracks (r : LedgerRequest) (h : AgreeOn look (touches r B) B C) :
    Tracks (touches r B) B (B.execute jvm r) (C.execute jvm r) := by
  -- Every branch is decided by places of the footprint, on which the two banks agree.
  cases r with
  | registerUser username rest =>
    have hname : Place.user username ∈ touches (.registerUser username rest) B := rfl
    simp only [Bank.execute, Bank.register, AgreeOn.holders h hname]
    cases B.holders username with
    | some x => exact .same h _
    | none =>
      rcases rest with e | ⟨password, amount, roles⟩
      · exact .same h _
      · dsimp only
        cases BankEntity.new jvm username password amount roles with
        | error e => exact .same h _
        | ok b => exact ⟨rfl, (Follows.refl h).enrol hname _⟩
  | createMoney who rest =>
    have hwho : Place.user who ∈ touches (.createMoney who rest) B := rfl
    simp only [Bank.execute, AgreeOn.holders h hwho, AgreeOn.balance h hwho]
    cases B.holders who with
    | none => exact .same h _
    | some x =>
      rcases rest with e | ⟨original, amount⟩
      · exact .same h _
      · cases B.balance who with
        | error e => exact .same h _
        | ok v => exact deposit_tracks h hwho v original amount
  | transferMoney sender fromSaldo receiver toSaldo fromAmount toAmount =>
    have hsender : Place.user sender ∈
        touches (.transferMoney sender fromSaldo receiver toSaldo fromAmount toAmount) B := .inl rfl
    have hreceiver : Place.user receiver ∈
        touches (.transferMoney sender fromSaldo receiver toSaldo fromAmount toAmount) B := .inr rfl
    simp only [Bank.execute, AgreeOn.holders h hsender, AgreeOn.holders h hreceiver]
    cases B.holders sender with
    | none => exact .same h _
    | some x =>
      cases B.holders receiver with
      | none => exact .same h _
      | some y => exact transfer_tracks h hsender hreceiver fromSaldo toSaldo fromAmount toAmount x y
  | createAuction who auctionID =>
    have hwho : Place.user who ∈ touches (.createAuction who auctionID) B := .inl rfl
    have hid : Place.auction auctionID ∈ touches (.createAuction who auctionID) B := .inr rfl
    simp only [Bank.execute, AgreeOn.holders h hwho, AgreeOn.sales h hid]
    cases B.holders who with
    | none => exact .same h _
    | some x =>
      cases B.sales auctionID with
      | some sale => exact .same h _
      | none => exact (createAuction_tracks h hwho hid).map fun j => Except.ok (BankService.jsonReply j)
  | closeAuction who auctionID =>
    have hclose : Tracks _ B (B.closeAution jvm auctionID who) (C.closeAution jvm auctionID who) :=
      closeAution_tracks h (.inl rfl) (.inr (.inl rfl)) fun sale hsale => .inr (.inr ⟨sale, hsale, rfl⟩)
    exact hclose.map (Except.map BankService.jsonReply)

/-- A request is local to what it touches. -/
theorem execute_local (jvm : Jvm) (r : LedgerRequest) :
    Local look (touches r) fun B => B.execute jvm r where
  stable := by
    intro B C h
    cases r with
    | closeAuction who auctionID =>
      have hid : Place.auction auctionID ∈ touches (.closeAuction who auctionID) B := .inr (.inl rfl)
      simp only [touches, AgreeOn.sales h hid]
    | registerUser | createMoney | transferMoney | createAuction => rfl
  result := fun h => (execute_tracks r h).result
  effect := fun h => (execute_tracks r h).state.agree
  frame := fun {B p} hp => (execute_tracks r fun _ _ => rfl).state.frame p hp

end Local

/-! ## Runs -/

section Runs

variable {jvm : Jvm} {st : BankService} {c c' : Command} {r r' : LedgerRequest}

/-- A request on the ledger at a replica. -/
theorem ordered_ledger (h : Indexed st.bankRepo) (hc : decodeOrdered c = .ok (.ledger r)) :
    (st.appExecuteOrdered jvm c).1 = Office.settle ((bank st.bankRepo).execute jvm r).1 ∧
      office (st.appExecuteOrdered jvm c).2 = ⟨((bank st.bankRepo).execute jvm r).2, st.sR⟩ := by
  obtain ⟨hreply, hoffice⟩ := @ordered_refines jvm _ h c
  simp only [Office.ordered, hc] at hreply hoffice
  exact ⟨hreply _ rfl, hoffice⟩

/-- Two requests on the ledger that touch nothing in common, in either order. -/
theorem exchange_ordered (hst : Indexed st.bankRepo) (hc : decodeOrdered c = .ok (.ledger r))
    (hc' : decodeOrdered c' = .ok (.ledger r'))
    (h : Apart (touches r (bank st.bankRepo)) (touches r' (bank st.bankRepo))) :
    ((st.appExecuteOrdered jvm c).2.appExecuteOrdered jvm c').1 = (st.appExecuteOrdered jvm c').1 ∧
      office ((st.appExecuteOrdered jvm c).2.appExecuteOrdered jvm c').2 =
        office ((st.appExecuteOrdered jvm c').2.appExecuteOrdered jvm c).2 := by
  have hone : Indexed (st.appExecuteOrdered jvm c).2.bankRepo :=
    hst.updates (appExecuteOrdered_updates c st)
  have htwo : Indexed (st.appExecuteOrdered jvm c').2.bankRepo :=
    hst.updates (appExecuteOrdered_updates c' st)
  obtain ⟨-, hoffice⟩ := @ordered_ledger jvm _ _ _ hst hc
  obtain ⟨hreply', hoffice'⟩ := @ordered_ledger jvm _ _ _ hst hc'
  obtain ⟨hsecond, hlast⟩ := @ordered_ledger jvm _ _ _ hone hc'
  obtain ⟨-, hlast'⟩ := @ordered_ledger jvm _ _ _ htwo hc
  have hbank : bank (st.appExecuteOrdered jvm c).2.bankRepo = _ := congrArg Office.bank hoffice
  have hbank' : bank (st.appExecuteOrdered jvm c').2.bankRepo = _ := congrArg Office.bank hoffice'
  have hsR : (st.appExecuteOrdered jvm c).2.sR = st.sR := congrArg Office.sR hoffice
  have hsR' : (st.appExecuteOrdered jvm c').2.sR = st.sR := congrArg Office.sR hoffice'
  -- The two requests are exchanged at the bank.
  obtain ⟨hresult, -, hstate⟩ := (execute_local jvm r).exchange ext_look (execute_local jvm r') h
  constructor
  · rw [hsecond, hreply', hbank]
    exact congrArg Office.settle hresult
  · rw [hlast, hlast', hbank, hbank', hsR, hsR']
    exact congrArg (fun B => (⟨B, st.sR⟩ : Office)) hstate

/-- **Requests about different things commute:** two requests that touch nothing in common at some point
of a run may be ordered either way. Each is answered as it would have been without the other, and the
replica is the same office after whatever follows. -/
theorem requests_commute (jvm : Jvm) (xs ys : List Action) (hc : decodeOrdered c = .ok (.ledger r))
    (hc' : decodeOrdered c' = .ok (.ledger r'))
    (h : Apart (touches r (bank (reached jvm xs))) (touches r' (bank (reached jvm xs)))) :
    let st := BankService.new.runAll jvm xs
    ((st.appExecuteOrdered jvm c).2.appExecuteOrdered jvm c').1 = (st.appExecuteOrdered jvm c').1 ∧
    ((st.appExecuteOrdered jvm c').2.appExecuteOrdered jvm c).1 = (st.appExecuteOrdered jvm c).1 ∧
    office (BankService.new.runAll jvm (xs ++ [.ordered c, .ordered c'] ++ ys)) =
      office (BankService.new.runAll jvm (xs ++ [.ordered c', .ordered c] ++ ys)) := by
  intro st
  have hst : Indexed st.bankRepo := reached_indexed xs
  obtain ⟨hreply, hoffice⟩ := @exchange_ordered jvm _ _ _ _ _ hst hc hc' h
  obtain ⟨hreply', -⟩ := @exchange_ordered jvm _ _ _ _ _ hst hc' hc h.symm
  -- The rest of the run is a run of the abstract bank, which no longer sees the order.
  have hruns : ∀ d d' : Command,
      office (BankService.new.runAll jvm (xs ++ [.ordered d, .ordered d'] ++ ys)) =
        ys.foldl (Office.step jvm)
          (office ((st.appExecuteOrdered jvm d).2.appExecuteOrdered jvm d').2) := by
    intro d d'
    have hend : BankService.new.runAll jvm (xs ++ [.ordered d, .ordered d']) =
        ((st.appExecuteOrdered jvm d).2.appExecuteOrdered jvm d').2 := BankService.runAll_append _ _ _
    rw [BankService.runAll_append, office_runAll (reached_indexed _), hend]
  exact ⟨hreply, hreply', by rw [hruns, hruns, hoffice]⟩

end Runs

/-- `alice` and `bob` register. -/
theorem registrations_commute :
    let jvm := Jvm.plain (ContractClass.queueing [])
    let alice := Proxy.registerUser (some "alice") (some "secret") (some 10) none
    let bob := Proxy.registerUser (some "bob") (some "secret") (some 0) none
    (((BankService.new.appExecuteOrdered jvm alice).2.appExecuteOrdered jvm bob).1 =
        (BankService.new.appExecuteOrdered jvm bob).1 ∧
      ((BankService.new.appExecuteOrdered jvm bob).2.appExecuteOrdered jvm alice).1 =
        (BankService.new.appExecuteOrdered jvm alice).1 ∧
      office (BankService.new.runAll jvm [.ordered alice, .ordered bob]) =
        office (BankService.new.runAll jvm [.ordered bob, .ordered alice])) ∧
      (bank (reached jvm [.ordered alice, .ordered bob])).holders (some "bob") ≠ none := by
  refine ⟨requests_commute (Jvm.plain (ContractClass.queueing [])) [] []
    (Proxy.decodeOrdered_registerUser (some "alice") (some "secret") (some 10) none)
    (Proxy.decodeOrdered_registerUser (some "bob") (some "secret") (some 0) none) ?_, by decide⟩
  rintro p rfl
  simp [touches]

end NovaBank.Spec
