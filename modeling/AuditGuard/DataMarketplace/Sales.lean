import AuditGuard.DataMarketplace.Effects

/-!
# DataMarketplace: payments are conserved and accounted for

A sale moves the price from the buyer to the seller and the treasury through the contract, which keeps
nothing. Over a run, the revenue of a listing is the sum of the prices that its buyers were charged, and the
record of a purchase has the price that was paid last.
-/

namespace AuditGuard.DataMarketplace

open Evm TransitionSystem

/-- What a transition charges for a listing: its current price, if it is a purchase or a renewal of it. -/
def charged (listing : ℕ) (tr : Transition (World State) (Label Env Call)) : ℕ :=
  match tr.label with
  | .call _ (.purchaseData listingId) =>
    if listingId.val = listing then (tr.src.state.listings listing).price else 0
  | .call _ (.renewSubscription listingId) =>
    if listingId.val = listing then (tr.src.state.listings listing).price else 0
  | _ => 0

/-- The transition takes the price of the listing from the buyer, gives the seller and the treasury as much
together, moves no other balance, and leaves the price in the buyer's latest record. -/
structure Settles (listing : ℕ) (buyer : Address)
    (tr : Transition (World State) (Label Env Call)) : Prop where
  paid : ∃ platformFee ≤ (tr.src.state.listings listing).price, ∀ a,
    tr.dst.token.balance a + (if buyer = a then (tr.src.state.listings listing).price else 0) =
      tr.src.token.balance a +
        (if (tr.src.state.listings listing).seller = a
          then (tr.src.state.listings listing).price - platformFee else 0) +
        (if tr.src.state.treasury = a then platformFee else 0)
  recorded : ∃ i, findLatestPurchaseIndex (tr.dst.state.purchases listing) buyer = (true, i) ∧
    ((tr.dst.state.purchases listing).getD i Purchase.zero).pricePaid =
      (tr.src.state.listings listing).price

variable {this buyer : Address} {env : Env} {b b' : Books} {token token' : TokenLedger} {c : Call}
  {listing : ℕ} {records : List Purchase} {l : DataListing} {w w' : World State}
  {ts : List (Transition (World State) (Label Env Call))}

theorem Pays.balance (h : Pays this buyer b l token token') : ∃ platformFee ≤ l.price, ∀ a,
    token'.balance a + (if buyer = a then l.price else 0) =
      token.balance a + (if l.seller = a then l.price - platformFee else 0) +
        (if b.treasury = a then platformFee else 0) := by
  obtain ⟨fee, hle, htransfers⟩ := h
  refine ⟨fee, hle, fun a => ?_⟩
  have hmoved := Ledger.transferAll_balance htransfers a
  simp only [saleTransfers, List.map_cons, List.map_nil, List.sum_cons, List.sum_nil] at hmoved
  split_ifs at hmoved ⊢ <;> omega

theorem findLatestPurchaseIndex_append (records : List Purchase) (p : Purchase) :
    findLatestPurchaseIndex (records ++ [p]) p.buyer = (true, records.length) ∧
      (records ++ [p]).getD records.length Purchase.zero = p := by
  have hlast : (records ++ [p]).getD records.length Purchase.zero = p := by
    simp [List.getD_eq_getElem?_getD]
  refine ⟨?_, hlast⟩
  unfold findLatestPurchaseIndex
  rw [List.length_append, List.length_singleton, findLatestPurchaseFrom, hlast, if_pos rfl]

theorem findLatestPurchaseIndex_set {i : ℕ} {p : Purchase}
    (hfind : findLatestPurchaseIndex records buyer = (true, i)) (hbuyer : p.buyer = buyer) :
    findLatestPurchaseIndex (records.set i p) buyer = (true, i) ∧
      (records.set i p).getD i Purchase.zero = p := by
  obtain ⟨hlt, hfound⟩ := findLatestPurchaseFrom_ok hfind
  have hset : (records.set i p).getD i Purchase.zero = p := by
    rw [List.getD_eq_getElem?_getD, List.getElem?_set_self hlt, Option.getD_some]
  refine ⟨?_, hset⟩
  rw [← hfind]
  unfold findLatestPurchaseIndex
  rw [List.length_set]
  refine findLatestPurchaseFrom_congr fun j _ => ?_
  rcases eq_or_ne j i with rfl | hne
  · rw [hset, hbuyer, hfound]
  · rw [List.getD_eq_getElem?_getD, List.getD_eq_getElem?_getD, List.getElem?_set_ne hne.symm]

theorem Effect.balance_this (h : Effect this env b token c b' token') (hb : Kept this b)
    (hs : env.sender ≠ this) (htreasury : b.treasury ≠ this) :
    token'.balance this = token.balance this := by
  have hsale : ∀ listing, (b.listings listing).listingId ≠ 0 →
      Pays this env.sender b (b.listings listing) token token' →
      token'.balance this = token.balance this := by
    intro listing hexists hpays
    obtain ⟨fee, -, hbalance⟩ := hpays.balance
    have hthis := hbalance this
    rw [if_neg hs, if_neg ((hb.listing listing).seller hexists), if_neg htreasury] at hthis
    omega
  cases h with
  | buy hexists hpurchasable hnew hpays hbuyer hpaid => exact hsale _ hexists hpays
  | renew hexists hpays hfind hbuyer hpaid => exact hsale _ hexists hpays
  | tip hexists htoken =>
    exact Ledger.transfer_balance_other htoken hs.symm ((hb.listing _).seller hexists).symm
  | _ => rfl

theorem Books.totalRevenue_setListing (b : Books) (listingId : ℕ) (l : DataListing) (listing : ℕ) :
    ((b.setListing listingId l).listings listing).totalRevenue =
      if listingId = listing then l.totalRevenue else (b.listings listing).totalRevenue := by
  unfold Books.setListing
  dsimp only
  rw [Function.update_apply, apply_ite DataListing.totalRevenue]
  exact if_congr eq_comm rfl rfl

/-- A call adds to the revenue of a listing what it charges for it. -/
theorem Effect.totalRevenue (h : Effect this env (books w.state) token c b' token') :
    (b'.listings listing).totalRevenue =
      (w.state.listings listing).totalRevenue + charged listing ⟨w, .call env c, w'⟩ := by
  unfold charged
  cases h with
  | create hid hseller hstatus hcount hrevenue =>
    rw [Books.totalRevenue_setListing]
    split_ifs with hlisting
    · rw [hrevenue, ← hlisting]
      rfl
    · rfl
  | delist hexists =>
    rw [Books.totalRevenue_setListing]
    split_ifs with hlisting
    · rw [← hlisting]
      rfl
    · rfl
  | reprice hexists hactive =>
    rw [Books.totalRevenue_setListing]
    split_ifs with hlisting
    · rw [← hlisting]
      rfl
    · rfl
  -- The two sales add the price.
  | buy hexists hpurchasable hnew hpays hbuyer hpaid =>
    rw [Books.totalRevenue_setListing]
    dsimp only
    split_ifs with hlisting
    · rw [← hlisting]
      rfl
    · rfl
  | renew hexists hpays hfind hbuyer hpaid =>
    rw [Books.totalRevenue_setListing]
    dsimp only
    split_ifs with hlisting
    · rw [← hlisting]
      rfl
    · rfl
  | _ => rfl

/-- A listing has the revenue that was charged for it. -/
theorem totalRevenue_run (hr : (contract this).system.Run ts w) :
    (w.state.listings listing).totalRevenue = (ts.map (charged listing)).sum := by
  induction hr with
  | @init w hinit =>
    obtain ⟨deployer, guardToken, agentRegistry, treasury, hs⟩ := hinit
    simp only [deploy, bind_eq_ok, pure_eq_ok] at hs
    obtain ⟨_, -, _, -, _, -, _, -, hs⟩ := hs
    rw [← hs]
    rfl
  | @step ts w w' l hr hstep ih =>
    rw [List.map_append, List.sum_append, ← ih, List.map_singleton, List.sum_singleton]
    cases hstep with
    | elsewhere h ht => rfl
    | call hs h0 ht hexec => exact (exec_effect hexec).totalRevenue

theorem Effect.sale {listingId : UInt 256} (h : Effect this env b token c b' token')
    (hc : c = .purchaseData listingId ∨ c = .renewSubscription listingId) :
    Pays this env.sender b (b.listings listingId) token token' ∧
    ∃ i, findLatestPurchaseIndex (b'.purchases listingId) env.sender = (true, i) ∧
      ((b'.purchases listingId).getD i Purchase.zero).pricePaid = (b.listings listingId).price := by
  rcases hc with rfl | rfl
  · cases h with
    | @buy _ purchase _ hexists hpurchasable hnew hpays hbuyer hpaid =>
      obtain ⟨hfind, hget⟩ := findLatestPurchaseIndex_append (b.purchases listingId) purchase
      refine ⟨hpays, (b.purchases listingId).length, ?_⟩
      simp only [Books.setListing, Books.grant, Books.setPurchases, Function.update_self]
      rw [hget, ← hbuyer]
      exact ⟨hfind, hpaid⟩
  · cases h with
    | @renew _ i purchase _ hexists hpays hfind hbuyer hpaid =>
      obtain ⟨hfind', hget⟩ := findLatestPurchaseIndex_set hfind hbuyer
      refine ⟨hpays, i, ?_⟩
      simp only [Books.setListing, Books.setPurchases, Function.update_self]
      rw [hget]
      exact ⟨hfind', hpaid⟩

theorem settles {tr : Transition (World State) (Label Env Call)}
    (h : (contract this).Step tr.src tr.label tr.dst)
    (hsale : Buys listing buyer tr ∨ Renews listing buyer tr) : Settles listing buyer tr := by
  obtain ⟨env, c, listingId, hlabel, hc, rfl, rfl⟩ : ∃ env c, ∃ listingId : UInt 256,
      tr.label = .call env c ∧ (c = .purchaseData listingId ∨ c = .renewSubscription listingId) ∧
      listingId.val = listing ∧ env.sender = buyer := by
    rcases hsale with ⟨env, listingId, hcall, hid, hsender⟩ | ⟨env, listingId, hcall, hid, hsender⟩
    · exact ⟨env, _, listingId, hcall, .inl rfl, hid, hsender⟩
    · exact ⟨env, _, listingId, hcall, .inr rfl, hid, hsender⟩
  obtain ⟨w, l, w'⟩ := tr
  dsimp only at h hlabel
  subst hlabel
  cases h with
  | call hs h0 ht hexec =>
    obtain ⟨hpays, hrecorded⟩ := (exec_effect hexec).sale hc
    exact ⟨hpays.balance, hrecorded⟩

/-- In every run in which the contract is not its own treasury: no call changes the contract's own balance,
every sale takes the current price from the buyer and gives it to the seller and the treasury, and the revenue
of every listing is the sum of the prices that were charged for it. -/
theorem sales_accounted (hr : (contract this).system.Run ts w)
    (htreasury : ∀ tr ∈ ts, tr.src.state.treasury ≠ this) :
    (∀ tr ∈ ts, ∀ env c, tr.label = .call env c →
      tr.dst.token.balance this = tr.src.token.balance this) ∧
    (∀ tr ∈ ts, ∀ listing buyer, Buys listing buyer tr ∨ Renews listing buyer tr →
      Settles listing buyer tr) ∧
    ∀ listing, (w.state.listings listing).totalRevenue = (ts.map (charged listing)).sum := by
  have hsteps := hr.step_of_mem
  refine ⟨?_, fun tr htr listing buyer => settles (hsteps tr htr).2, fun _ => totalRevenue_run hr⟩
  intro tr htr env c hlabel
  obtain ⟨hreachable, hstep⟩ := hsteps tr htr
  have hsrc := htreasury tr htr
  obtain ⟨w, l, w'⟩ := tr
  dsimp only at hlabel hreachable hstep hsrc ⊢
  subst hlabel
  cases hstep with
  | call hs h0 ht hexec =>
    exact (exec_effect hexec).balance_this (Kept.of_reachable hreachable) hs hsrc

/-- The agent 2 sells a report, first for ten tokens and then for twenty, and a subscription. The agents 3 and
4 buy, tip and renew, while the owner changes the fee. -/
def salesCalls : List (Env × Call) :=
  [(sampleEnv 2 0, .createListing 1 "report" "one finding" .scanReport .oneTime (10 * 10^8) 0 1 0 0),
    (sampleEnv 2 1, .createListing 1 "feed" "all findings" .threatIntel .subscription (5 * 10^8)
      (30 * 86400) 1 0 0),
    (sampleEnv 3 2, .purchaseData 1),
    (sampleEnv 2 3, .updatePrice 1 (20 * 10^8)),
    (sampleEnv 9 4, .setPlatformFeePercent 7),
    (sampleEnv 3 5, .tipSeller 1 (10^8)),
    (sampleEnv 3 6, .purchaseData 2),
    (sampleEnv 3 7, .renewSubscription 2)]

/-- The accounts of a run with sales, a tip and changes of price and fee. -/
theorem sales_accounted_sample : ∃ ts w, (contract 1).system.Run ts w ∧
    ((∀ tr ∈ ts, ∀ env c, tr.label = .call env c →
      tr.dst.token.balance 1 = tr.src.token.balance 1) ∧
    (∀ tr ∈ ts, ∀ listing buyer, Buys listing buyer tr ∨ Renews listing buyer tr →
      Settles listing buyer tr) ∧
    ∀ listing, (w.state.listings listing).totalRevenue = (ts.map (charged listing)).sum) ∧
    (w.state.listings 1).totalRevenue = 10 * 10^8 ∧ (w.state.listings 2).totalRevenue = 10 * 10^8 := by
  obtain ⟨ts, w, hcalls, hr, htrace⟩ := sample_run salesCalls (by decide) rfl
  have htreasury := read_ok htrace (fun ts => ts.all fun tr => decide (tr.src.state.treasury ≠ 1))
    (b := true) (by decide +kernel)
  have hrevenue := read_ok hcalls
    (fun w => ((w.state.listings 1).totalRevenue, (w.state.listings 2).totalRevenue))
    (b := (10 * 10^8, 10 * 10^8)) (by decide +kernel)
  rw [List.all_eq_true] at htreasury
  refine ⟨ts, w, hr, sales_accounted hr fun tr htr => of_decide_eq_true (htreasury tr htr), ?_⟩
  exact Prod.mk.inj hrevenue

end AuditGuard.DataMarketplace
