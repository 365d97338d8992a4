import NovaBank.Replica.Changes

/-!
# The maps of a repository agree

`Indexed`: an auction is in `auctions` and in exactly one of the maps of opened and closed auctions,
under its own id and as one object; its owner is a user who lists it; and its bids carry the
auction's id and are those of the repository and of their bidders. Every change keeps the maps in
agreement, so they agree in every state that a replica reaches (`Reachable.indexed`).
-/

namespace NovaBank.Replica

open Java

/-! ## The maps agree -/

/-- The maps of a repository agree with each other. -/
structure Indexed (s : BankRepository) : Prop where
  opened : ∀ {k r}, s.openedAuctions.lookup k = some r → s.auctions.lookup k = some r ∧
    s.closedAuctions.lookup k = none ∧ (s.auction r).isClosed = false
  closed : ∀ {k r}, s.closedAuctions.lookup k = some r → s.auctions.lookup k = some r ∧
    s.openedAuctions.lookup k = none ∧ (s.auction r).isClosed = true
  covered : ∀ {k r}, s.auctions.lookup k = some r →
    s.openedAuctions.lookup k = some r ∨ s.closedAuctions.lookup k = some r
  object : ∀ {k r}, s.auctions.lookup k = some r → r < s.objects.length ∧ (s.auction r).id = k
  owner : ∀ {k r}, s.auctions.lookup k = some r → ∃ b,
    s.findByUserName (s.auction r).ownerUsername = some b ∧ b.auctions.lookup k = some r
  bid : ∀ {k r b}, s.auctions.lookup k = some r → b ∈ (s.auction r).bids.values →
    k = some b.id ∧ s.bids.get b.id = some b ∧
      ∃ u, s.findByUserName b.username = some u ∧ u.bids.get b.id = some b
  bids : ∀ {i b}, s.bids.get i = some b →
    ∃ r, s.auctions.lookup (some i) = some r ∧ b ∈ (s.auction r).bids.values

namespace Indexed

variable {s : BankRepository}

/-- The maps of an empty repository agree. -/
theorem new : Indexed BankRepository.new := by
  constructor <;> intros <;> simp_all [BankRepository.new]

/-- An id has no auction, an opened one or a closed one, and the three maps say which. -/
theorem auction_cases (h : Indexed s) (k : JLong) :
    (s.auctions.lookup k = none ∧ s.openedAuctions.lookup k = none ∧
      s.closedAuctions.lookup k = none) ∨
    (∃ r, s.auctions.lookup k = some r ∧ s.openedAuctions.lookup k = some r ∧
      s.closedAuctions.lookup k = none) ∨
    (∃ r, s.auctions.lookup k = some r ∧ s.openedAuctions.lookup k = none ∧
      s.closedAuctions.lookup k = some r) := by
  -- Opened and closed exclude each other, and cover all auctions.
  cases ho : s.openedAuctions.lookup k with
  | some r => exact .inr (.inl ⟨r, (h.opened ho).1, rfl, (h.opened ho).2.1⟩)
  | none =>
    cases hc : s.closedAuctions.lookup k with
    | some r => exact .inr (.inr ⟨r, (h.closed hc).1, rfl, rfl⟩)
    | none =>
      cases ha : s.auctions.lookup k with
      | none => exact .inl ⟨rfl, rfl, rfl⟩
      | some r => rcases h.covered ha with h | h <;> simp_all

/-- An object is listed under one id only. -/
theorem ref_inj (h : Indexed s) {k k' : JLong} {r : AuctionRef} (hk : s.auctions.lookup k = some r)
    (hk' : s.auctions.lookup k' = some r) : k = k' := by
  rw [← (h.object hk).2, (h.object hk').2]

/-- Objects that are listed under different ids are different. -/
theorem ref_ne (h : Indexed s) {k k' : JLong} {r r' : AuctionRef} (hk : s.auctions.lookup k = some r)
    (hk' : s.auctions.lookup k' = some r') (hne : k ≠ k') : r ≠ r' := by
  rintro rfl
  exact hne (h.ref_inj hk hk')

/-- A closed auction is another object than an opened one. -/
theorem closed_ne_opened (h : Indexed s) {k k' : JLong} {r r' : AuctionRef}
    (hc : s.closedAuctions.lookup k = some r) (ho : s.openedAuctions.lookup k' = some r') :
    r ≠ r' := by
  rintro rfl
  have hflag := (h.closed hc).2.2
  rw [(h.opened ho).2.2] at hflag
  cases hflag

/-- The end of a listed auction moves its entry between the maps. -/
theorem closeAuction_eq (h : Indexed s) {id : JLong} {r : AuctionRef}
    (ha : s.auctions.lookup id = some r) :
    (s.updateAuction r AuctionEntity.close).closeAuction r =
      { s.updateAuction r AuctionEntity.close with
        auctions := s.auctions.insert id r
        openedAuctions := KeyedMap.remove s.openedAuctions id
        closedAuctions := s.closedAuctions.insert id r } := by
  -- `closeAuction` takes the id from the object, which was filed under its own id.
  have hid : ((s.updateAuction r AuctionEntity.close).auction r).id = id := by
    rw [s.updateAuction_auction (h.object ha).1, if_pos rfl]
    exact (h.object ha).2
  rw [BankRepository.closeAuction, hid]
  rfl

/-- The bids of an auction are filed under its id, so it has none when nothing is filed there. -/
theorem bids_eq_empty (h : Indexed s) {i : Int64} {r : AuctionRef}
    (ha : s.auctions.lookup (some i) = some r) (free : (s.auction r).bids.get i = none) :
    (s.auction r).bids = KeyedMap.empty := by
  apply KeyedMap.ext
  rw [KeyedMap.empty_values, List.eq_nil_iff_forall_not_mem]
  intro b hb
  have hi : i = b.id := Option.some.inj (h.bid ha hb).1
  exact KeyedMap.get_eq_none_iff.mp free b hb hi.symm

/-- A bid is accepted only where it is the first one, so that no bid is given back. -/
theorem acceptBid_eq (h : Indexed s) {bid : BidEntity} {r : AuctionRef} {b : BankEntity}
    (user : s.findByUserName bid.username = some b)
    (auction : s.findByAuctionID (some bid.id) = some r)
    (free : (s.auction r).bids.get bid.id = none) :
    BankServiceHelper.acceptBid bid r s =
      ((s.newUserBankEntity (b.freezeBid bid)).updateAuction r fun a => a.addBid bid).createBid
        bid := by
  have hlast : (s.auction r).getLastBid = none := by
    rw [AuctionEntity.getLastBid, h.bids_eq_empty auction free, KeyedMap.get_empty]
  exact BankServiceHelper.acceptBid_of_no_last user hlast

/-! ## Every update keeps them in agreement -/

/-- The version is in no map. -/
theorem version (h : Indexed s) (v : Int32) : Indexed { s with version := v } :=
  ⟨h.opened, h.closed, h.covered, h.object, h.owner, h.bid, h.bids⟩

/-- A put of an account keeps the maps in agreement when it loses nothing that is listed and that
its user held. -/
theorem newUserBankEntity (h : Indexed s) {b : BankEntity}
    (hb : ∀ b', s.findByUserName b.userName = some b' →
      (∀ k r, s.auctions.lookup k = some r → b'.auctions.lookup k = some r →
        b.auctions.lookup k = some r) ∧
      (∀ i x, s.bids.get i = some x → b'.bids.get i = some x → b.bids.get i = some x)) :
    Indexed (s.newUserBankEntity b) := by
  refine ⟨h.opened, h.closed, h.covered, h.object, ?_, ?_, h.bids⟩
  -- A stored account replaces the one of its name, and so it has to keep the auctions and the bids.
  · intro k r hk
    obtain ⟨u, hu, hku⟩ := h.owner hk
    by_cases e : b.userName = (s.auction r).ownerUsername
    · exact ⟨b, by simp [e], (hb u (e ▸ hu)).1 k r hk hku⟩
    · exact ⟨u, by simp [e, hu], hku⟩
  · intro k r x hk hx
    obtain ⟨hkx, hbx, u, hu, hux⟩ := h.bid hk hx
    refine ⟨hkx, hbx, ?_⟩
    by_cases e : b.userName = x.username
    · exact ⟨b, by simp [e], (hb u (e ▸ hu)).2 x.id x hbx hux⟩
    · exact ⟨u, by simp [e, hu], hux⟩

/-- A new amount keeps the maps in agreement. -/
theorem setAmount (h : Indexed s) {who : JString} {b : BankEntity}
    (user : s.findByUserName who = some b) (v : Int64) :
    Indexed (s.newUserBankEntity (b.updateAmount v)) := by
  apply h.newUserBankEntity
  intro b' hb'
  rw [BankRepository.userName_updateAmount user, user] at hb'
  cases hb'
  exact ⟨fun _ _ _ hk => hk, fun _ _ _ hx => hx⟩

/-- A new auction keeps the maps in agreement when its owner lists it already. -/
theorem createAuction (h : Indexed s) {id : JLong} {who : JString} {b : BankEntity}
    (free : s.findByAuctionID id = none) (user : s.findByUserName who = some b)
    (lists : b.auctions.lookup id = some s.objects.length) :
    Indexed (s.createAuction (AuctionEntity.new id who)).2 := by
  have hid : (AuctionEntity.new id who).id = id := rfl
  -- An id that is listed is not the new one, and its object is not moved by the new one.
  have hne : ∀ {k r}, s.auctions.lookup k = some r → id ≠ k := by
    rintro k r hk rfl
    simp [BankRepository.findByAuctionID, hk] at free
  have hold : ∀ {k r}, s.auctions.lookup k = some r →
      (s.createAuction (AuctionEntity.new id who)).2.auction r = s.auction r :=
    fun hk => s.createAuction_auction _ (h.object hk).1
  have hclosed : s.closedAuctions.lookup id = none := by
    rcases h.auction_cases id with ⟨-, -, hc⟩ | ⟨r, ha, -⟩ | ⟨r, ha, -⟩
    · exact hc
    · exact absurd rfl (hne ha)
    · exact absurd rfl (hne ha)
  -- Every entry of the new map of auctions is the new one or an old one.
  have hcases : ∀ {k r}, (s.createAuction (AuctionEntity.new id who)).2.auctions.lookup k = some r →
      (k = id ∧ r = s.objects.length) ∨ s.auctions.lookup k = some r := by
    intro k r hk
    rw [BankRepository.createAuction_auctions, JavaMap.lookup_insert] at hk
    split_ifs at hk with e
    · exact .inl ⟨e.symm, (Option.some.inj hk).symm⟩
    · exact .inr hk
  refine ⟨?_, ?_, ?_, ?_, ?_, ?_, ?_⟩
  · -- The new id is in neither of the other maps.
    intro k r hk
    rw [BankRepository.createAuction_openedAuctions, JavaMap.lookup_insert] at hk
    split_ifs at hk with e
    · cases hk
      subst e
      simp [hclosed, AuctionEntity.new]
    · obtain ⟨ha, hc, hf⟩ := h.opened hk
      rw [hold ha]
      simp [hid, hne ha, ha, hc, hf]
  · intro k r hk
    obtain ⟨ha, ho, hf⟩ := h.closed hk
    rw [hold ha]
    simp [hid, hne ha, ha, ho, hf]
  · intro k r hk
    rcases hcases hk with ⟨rfl, rfl⟩ | hk
    · simp [hid]
    · simpa [hid, hne hk] using h.covered hk
  · intro k r hk
    rcases hcases hk with ⟨rfl, rfl⟩ | hk
    · simp [hid]
    · obtain ⟨hlt, hk'⟩ := h.object hk
      rw [hold hk]
      exact ⟨by simpa using Nat.lt_succ_of_lt hlt, hk'⟩
  · intro k r hk
    rcases hcases hk with ⟨rfl, rfl⟩ | hk
    · exact ⟨b, by simpa [AuctionEntity.new] using user, lists⟩
    · rw [hold hk]
      exact h.owner hk
  · -- The new auction has no bids.
    intro k r x hk hx
    rcases hcases hk with ⟨rfl, rfl⟩ | hk
    · simp [AuctionEntity.new] at hx
    · rw [hold hk] at hx
      exact h.bid hk hx
  · intro i x hx
    obtain ⟨r, ha, hxr⟩ := h.bids hx
    exact ⟨r, by simp [hid, hne ha, ha], by rw [hold ha]; exact hxr⟩

/-- So does a new auction. -/
theorem openAuction (h : Indexed s) {id : JLong} {who : JString} {b : BankEntity}
    (user : s.findByUserName who = some b) (free : s.findByAuctionID id = none) :
    Indexed (BankServiceHelper.createAuction id who s).2 := by
  have hname : (b.addAuction id s.objects.length).userName = who :=
    (b.addAuction_userName _ _).trans (BankRepository.userName_of_find user)
  -- The owner's account first: the new auction is not one of those that it had.
  have h' : Indexed (s.newUserBankEntity (b.addAuction id s.objects.length)) := by
    apply h.newUserBankEntity
    intro b' hb'
    rw [hname, user] at hb'
    cases hb'
    refine ⟨fun k r hk hkb => ?_, fun _ _ _ hx => hx⟩
    have e : id ≠ k := by
      rintro rfl
      simp [BankRepository.findByAuctionID, hk] at free
    simpa [BankEntity.addAuction, e] using hkb
  rw [BankServiceHelper.createAuction_of_free user free]
  exact h'.createAuction free (b := b.addAuction id s.objects.length)
    (by rw [BankRepository.newUserBankEntity_findByUserName, if_pos hname])
    (by simp [BankEntity.addAuction])

section Close

variable {id : JLong} {r : AuctionRef}

/-- The end of an auction closes its object. -/
theorem auction_closeAuction (h : Indexed s) (auction : s.findByAuctionID id = some r)
    (p : AuctionRef) :
    ((s.updateAuction r AuctionEntity.close).closeAuction r).auction p =
      if p = r then (s.auction r).close else s.auction p :=
  s.updateAuction_auction (h.object auction).1 AuctionEntity.close p

/-- Closing leaves the map of all auctions. -/
theorem auctions_closeAuction (h : Indexed s) (auction : s.findByAuctionID id = some r) (k : JLong) :
    ((s.updateAuction r AuctionEntity.close).closeAuction r).auctions.lookup k =
      s.auctions.lookup k := by
  rw [h.closeAuction_eq auction, JavaMap.lookup_insert]
  split_ifs with e
  · rw [← e]; exact auction.symm
  · rfl

/-- It takes the auction out of the opened ones. -/
theorem openedAuctions_closeAuction (h : Indexed s) (auction : s.findByAuctionID id = some r)
    (k : JLong) :
    ((s.updateAuction r AuctionEntity.close).closeAuction r).openedAuctions.lookup k =
      if id = k then none else s.openedAuctions.lookup k := by
  rw [h.closeAuction_eq auction]
  exact JavaMap.lookup_remove s.openedAuctions id k

/-- It puts the auction among the closed ones. -/
theorem closedAuctions_closeAuction (h : Indexed s) (auction : s.findByAuctionID id = some r)
    (k : JLong) :
    ((s.updateAuction r AuctionEntity.close).closeAuction r).closedAuctions.lookup k =
      if id = k then some r else s.closedAuctions.lookup k := by
  rw [h.closeAuction_eq auction]
  exact JavaMap.lookup_insert s.closedAuctions id k r

/-- After that, the maps agree again. -/
theorem closeAuction (h : Indexed s) (auction : s.findByAuctionID id = some r) :
    Indexed ((s.updateAuction r AuctionEntity.close).closeAuction r) := by
  have hobj := h.auction_closeAuction auction
  have hauctions := h.auctions_closeAuction auction
  have hopened := h.openedAuctions_closeAuction auction
  have hclosed := h.closedAuctions_closeAuction auction
  -- Closing changes neither the names, the ids nor the bids of an auction.
  have hsame : ∀ p, (((s.updateAuction r AuctionEntity.close).closeAuction r).auction p).id =
        (s.auction p).id ∧
      (((s.updateAuction r AuctionEntity.close).closeAuction r).auction p).ownerUsername =
        (s.auction p).ownerUsername ∧
      (((s.updateAuction r AuctionEntity.close).closeAuction r).auction p).bids =
        (s.auction p).bids := by
    intro p
    rw [hobj]
    split_ifs with e
    · rw [e]; exact ⟨rfl, rfl, rfl⟩
    · exact ⟨rfl, rfl, rfl⟩
  refine ⟨?_, ?_, ?_, ?_, ?_, ?_, ?_⟩
  · -- An auction that stays opened is another object than the closed one.
    intro k p hk
    rw [hopened] at hk
    split_ifs at hk with e
    obtain ⟨ha, hc, hf⟩ := h.opened hk
    have hp : p ≠ r := h.ref_ne ha auction (Ne.symm e)
    rw [hauctions, hclosed, hobj]
    simp [e, hp, ha, hc, hf]
  · intro k p hk
    rw [hclosed] at hk
    rw [hauctions, hopened, hobj]
    split_ifs at hk ⊢ with e1 e2
    · subst e1
      exact ⟨auction.trans hk, rfl, rfl⟩
    · exact absurd (Option.some.inj hk).symm e2
    · rename_i e2
      obtain ⟨ha, ho, hf⟩ := h.closed hk
      subst e2
      exact absurd (h.ref_inj auction ha) e1
    · exact h.closed hk
  · intro k p hk
    rw [hauctions] at hk
    rw [hopened, hclosed]
    split_ifs with e
    · subst e
      exact .inr (auction.symm.trans hk)
    · exact h.covered hk
  · intro k p hk
    rw [hauctions] at hk
    rw [(hsame p).1]
    exact ⟨by simpa [BankRepository.closeAuction] using (h.object hk).1, (h.object hk).2⟩
  · intro k p hk
    rw [hauctions] at hk
    rw [(hsame p).2.1]
    exact h.owner hk
  · intro k p x hk hx
    rw [hauctions] at hk
    rw [(hsame p).2.2] at hx
    exact h.bid hk hx
  · intro i x hx
    obtain ⟨p, ha, hxp⟩ := h.bids hx
    exact ⟨p, by rw [hauctions]; exact ha, by rw [(hsame p).2.2]; exact hxp⟩

end Close

/-- The first bid of an auction keeps the maps in agreement when its bidder lists it already. -/
theorem addBid (h : Indexed s) {bid : BidEntity} {r : AuctionRef} {b : BankEntity}
    (user : s.findByUserName bid.username = some b) (lists : b.bids.get bid.id = some bid)
    (auction : s.findByAuctionID (some bid.id) = some r)
    (first : (s.auction r).bids = KeyedMap.empty) :
    Indexed ((s.updateAuction r fun a => a.addBid bid).createBid bid) := by
  have hobj : ∀ p, ((s.updateAuction r fun a => a.addBid bid).createBid bid).auction p =
      if p = r then (s.auction r).addBid bid else s.auction p :=
    fun p => s.updateAuction_auction (h.object auction).1 _ p
  have hflag : ∀ p, (((s.updateAuction r fun a => a.addBid bid).createBid bid).auction p).isClosed =
      (s.auction p).isClosed := by
    intro p
    rw [hobj]
    split_ifs with e
    · rw [e]; rfl
    · rfl
  have hvalues : ((s.auction r).addBid bid).bids.values = [bid] := by
    simp [AuctionEntity.addBid, first, KeyedMap.put, KeyedMap.putList]
  -- No bid is filed under the id yet, since it would be a bid of the auction.
  have hnone : s.bids.get bid.id = none := by
    cases hb : s.bids.get bid.id with
    | none => rfl
    | some x =>
      obtain ⟨p, ha, hx⟩ := h.bids hb
      cases auction.symm.trans ha
      rw [first] at hx
      cases hx
  have hbids : ∀ i, ((s.updateAuction r fun a => a.addBid bid).createBid bid).bids.get i =
      if bid.id = i then some bid else s.bids.get i := fun i => KeyedMap.get_put s.bids bid i
  refine ⟨?_, ?_, h.covered, ?_, ?_, ?_, ?_⟩
  · intro k p hk
    rw [hflag]
    exact h.opened hk
  · intro k p hk
    rw [hflag]
    exact h.closed hk
  · intro k p hk
    obtain ⟨hlt, hid⟩ := h.object hk
    refine ⟨by simpa [BankRepository.createBid] using hlt, ?_⟩
    rw [hobj]
    split_ifs with e
    · rw [← e]; exact hid
    · exact hid
  · intro k p hk
    have howner : (((s.updateAuction r fun a => a.addBid bid).createBid bid).auction p).ownerUsername =
        (s.auction p).ownerUsername := by
      rw [hobj]
      split_ifs with e
      · rw [e]; rfl
      · rfl
    rw [howner]
    exact h.owner hk
  · -- The only bid of this auction is the new one, and the bids of the others are filed elsewhere.
    intro k p x hk hx
    rw [hobj] at hx
    split_ifs at hx with e
    · rw [hvalues, List.mem_singleton] at hx
      subst hx e
      exact ⟨h.ref_inj hk auction, by simp [hbids], b, user, lists⟩
    · obtain ⟨hkx, hbx, hux⟩ := h.bid hk hx
      refine ⟨hkx, ?_, hux⟩
      rw [hbids, if_neg, hbx]
      intro e'
      rw [← e', hnone] at hbx
      cases hbx
  · intro i x hx
    rw [hbids] at hx
    split_ifs at hx with e
    · cases hx
      subst e
      exact ⟨r, auction, by rw [hobj, if_pos rfl, hvalues]; exact List.mem_singleton_self _⟩
    · obtain ⟨p, ha, hxp⟩ := h.bids hx
      refine ⟨p, ha, ?_⟩
      have hp : p ≠ r := h.ref_ne ha auction fun e' => e (Option.some.inj e').symm
      rw [hobj, if_neg hp]
      exact hxp

/-- So they do after a first bid for an id. -/
theorem placeBid (h : Indexed s) {bid : BidEntity} {r : AuctionRef} {b : BankEntity}
    (user : s.findByUserName bid.username = some b)
    (auction : s.findByAuctionID (some bid.id) = some r)
    (free : (s.auction r).bids.get bid.id = none) :
    Indexed (BankServiceHelper.acceptBid bid r s) := by
  have hempty := h.bids_eq_empty auction free
  have hname : (b.freezeBid bid).userName = bid.username :=
    (b.freezeBid_userName bid).trans (BankRepository.userName_of_find user)
  have h' : Indexed (s.newUserBankEntity (b.freezeBid bid)) := by
    apply h.newUserBankEntity
    intro b' hb'
    rw [hname, user] at hb'
    cases hb'
    refine ⟨fun _ _ _ hk => hk, fun i x hx hxb => ?_⟩
    -- A bid that is listed under the id would be a bid of the auction, which has none.
    have e : bid.id ≠ i := by
      rintro rfl
      obtain ⟨p, ha, hxp⟩ := h.bids hx
      cases auction.symm.trans ha
      rw [hempty] at hxp
      cases hxp
    simpa [BankEntity.freezeBid, e] using hxb
  rw [h.acceptBid_eq user auction free]
  exact h'.addBid (b := b.freezeBid bid)
    (by rw [BankRepository.newUserBankEntity_findByUserName, if_pos hname])
    (by simp [BankEntity.freezeBid]) auction hempty

/-- Every change keeps the maps in agreement. -/
theorem change {s' : BankRepository} (h : Indexed s) (hc : Change s s') : Indexed s' := by
  cases hc with
  | register b free =>
    apply h.newUserBankEntity
    intro b' hb'
    rw [free] at hb'
    cases hb'
  | setAmount who b v user => exact h.setAmount user v
  | openAuction id who b user free => exact h.openAuction user free
  | closeAuction id r q auction opened => exact h.closeAuction auction
  | placeBid bid r q b v user amount enough auction opened free => exact h.placeBid user auction free

/-- A chain of updates keeps the maps in agreement. -/
theorem updates {s' : BankRepository} (h : Indexed s) (hu : Updates s s') : Indexed s' := by
  induction hu with
  | refl => exact h
  | tail _ hu ih =>
    cases hu with
    | change hc => exact ih.change hc
    | version v => exact ih.version v

end Indexed

/-! ## The states of a replica -/

/-- The states that a replica reaches from the empty repository, without a saved file. -/
inductive Reachable (jvm : Jvm) : BankService → Prop where
  | new : Reachable jvm BankService.new
  | ordered {st : BankService} (h : Reachable jvm st) (command : Command) :
      Reachable jvm (st.appExecuteOrdered jvm command).2
  | unordered {st : BankService} (h : Reachable jvm st) (command : Command) :
      Reachable jvm
        { st with bankRepo := (BankService.appExecuteUnordered jvm command st.bankRepo).2 }
  | pass {st : BankService} (h : Reachable jvm st) (now : Int32 → ℕ → Int64) :
      Reachable jvm (st.pass jvm now)
  | install {st st' : BankService} (h : Reachable jvm st) (snapshot : ObjectStream JObject)
      (hs : st.installSnapshot snapshot = .ok st') : Reachable jvm st'

/-- A snapshot updates nothing but the version. -/
theorem installSnapshot_updates {st st' : BankService} {snapshot : ObjectStream JObject}
    (h : st.installSnapshot snapshot = .ok st') : Updates st.bankRepo st'.bankRepo := by
  unfold BankService.installSnapshot at h
  -- Only an integer is accepted, and it becomes the version.
  cases hread : readObject snapshot with
  | error e =>
    simp only [hread] at h
    split_ifs at h
    cases h
    exact .refl
  | ok r =>
    obtain ⟨o, rest⟩ := r
    rw [hread] at h
    cases o with
    | int v =>
      cases h
      exact .single (.version _ v)
    | _ => cases h

/-- In every state that a replica reaches, the maps of its repository agree. -/
theorem Reachable.indexed {jvm : Jvm} {st : BankService} (h : Reachable jvm st) :
    Indexed st.bankRepo := by
  induction h with
  | new => exact Indexed.new
  | ordered _ command ih => exact ih.updates (appExecuteOrdered_updates command _)
  | unordered _ command ih => exact ih.updates (appExecuteUnordered_updates command _)
  | pass _ now ih => exact ih.updates (pass_updates now _)
  | install _ _ hs ih => exact ih.updates (installSnapshot_updates hs)

end NovaBank.Replica
