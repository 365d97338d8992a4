import NovaBank.Proxy.Commands
import NovaBank.Replica.Answers

/-!
# Agreement of replicas

Two replicas start empty and execute the same ordered requests, while the thread of each one's
contract runner makes its passes between them at times of its own. A pass executes operations on the
ledger that are in no request, so where it falls matters: `run_drain_diverges` is a run in which one
replica applies a deposit of a contract before an ordered deposit of the same user, and the other
one after it, and their balances differ for good.

`Aligned` is the condition under which they agree: the passes that find an operation to execute fall
between the same requests on both replicas. `run_agree_of_aligned` then says that all replies and
the books are the same, up to any function on the times of bids that the two clocks agree on.
-/

namespace NovaBank.Replica

open Java

/-- What happens to a replica. -/
inductive Event where
  /-- An ordered request. -/
  | ordered (command : Command)
  /-- A pass of the contract runner, with the times of its operations. -/
  | drain (now : Int32 → ℕ → Int64)

/-- The requests among some events. -/
def requests : List Event → List Command
  | [] => []
  | .ordered command :: es => command :: requests es
  | .drain _ :: es => requests es

namespace BankService

/-- The replies of a replica to a sequence of events, and the state that it ends in. -/
def run (jvm : Jvm) : List Event → BankService → List (Except JavaException Reply) × BankService
  | [], st => ([], st)
  | .ordered command :: es, st =>
    let (reply, st) := st.appExecuteOrdered jvm command
    let (replies, st) := run jvm es st
    (reply :: replies, st)
  | .drain now :: es, st => run jvm es (st.pass jvm now)

end BankService

/-- The same requests on two replicas, in the given states, with passes that do something between
the same requests on both, at times that agree under `f`. -/
inductive Aligned (jvm : Jvm) (f : Int64 → Int64) :
    BankService → BankService → List Event → List Event → Prop where
  | nil (st st' : BankService) : Aligned jvm f st st' [] []
  | ordered {st st' : BankService} {es es' : List Event} (command : Command)
      (h : Aligned jvm f (st.appExecuteOrdered jvm command).2 (st'.appExecuteOrdered jvm command).2
        es es') :
      Aligned jvm f st st' (.ordered command :: es) (.ordered command :: es')
  | both {st st' : BankService} {es es' : List Event} (now now' : Int32 → ℕ → Int64)
      (clocks : ∀ i n, f (now i n) = f (now' i n))
      (h : Aligned jvm f (st.pass jvm now) (st'.pass jvm now') es es') :
      Aligned jvm f st st' (.drain now :: es) (.drain now' :: es')
  | left {st st' : BankService} {es es' : List Event} (now : Int32 → ℕ → Int64)
      (idle : st.sR.Drained) (h : Aligned jvm f st st' es es') :
      Aligned jvm f st st' (.drain now :: es) es'
  | right {st st' : BankService} {es es' : List Event} (now : Int32 → ℕ → Int64)
      (idle : st'.sR.Drained) (h : Aligned jvm f st st' es es') :
      Aligned jvm f st st' es (.drain now :: es')

/-- A pass that finds no operation changes nothing. -/
theorem pass_of_drained (jvm : Jvm) {st : BankService} (h : st.sR.Drained)
    (now : Int32 → ℕ → Int64) : st.pass jvm now = st := by
  -- On the contracts that are left; each of them has an empty list.
  have hall : ∀ is : List Int32, st.runContracts jvm now is = st := by
    intro is
    induction is with
    | nil => rfl
    | cons i is ih =>
      have hops : ((st.sR.contracts.lookup i).map st.sR.getOperations).getD [] = [] := by
        cases hc : st.sR.contracts.lookup i with
        | none => rfl
        | some c => exact h i c hc
      rw [BankService.runContracts, hops]
      exact ih
  exact hall _

variable {jvm : Jvm} {f : Int64 → Int64}

/-- Aligned runs of related replicas answer alike and stay related. -/
theorem Aligned.replicas {st st' : BankService} {es es' : List Event}
    (h : Aligned jvm f st st' es es') (hr : Replicas f st st') :
    (st.run jvm es).1.map (Except.map (Reply.retime f)) =
        (st'.run jvm es').1.map (Except.map (Reply.retime f)) ∧
      Replicas f (st.run jvm es).2 (st'.run jvm es').2 := by
  -- On the alignment; a pass on one side only is idle and changes nothing there.
  induction h with
  | nil st st' => exact ⟨rfl, hr⟩
  | ordered command _ ih =>
    obtain ⟨hreply, hr'⟩ := hr.ordered jvm command
    obtain ⟨hreplies, hr''⟩ := ih hr'
    refine ⟨?_, hr''⟩
    simp only [BankService.run, List.map_cons]
    rw [hreply, hreplies]
  | both now now' clocks _ ih => exact ih (hr.pass clocks)
  | left now idle _ ih =>
    rw [BankService.run, pass_of_drained jvm idle]
    exact ih hr
  | right now idle _ ih =>
    have hpass := pass_of_drained jvm idle now
    simp only [BankService.run, hpass]
    exact ih hr

/-- **Replicas agree when their passes are aligned:** two replicas that start empty and execute the
same requests with aligned passes give the same replies and keep the same book, up to `f` on the
times of bids. -/
theorem run_agree_of_aligned (jvm : Jvm) (f : Int64 → Int64) (es es' : List Event)
    (h : Aligned jvm f BankService.new BankService.new es es') :
    (BankService.new.run jvm es).1.map (Except.map (Reply.retime f)) =
        (BankService.new.run jvm es').1.map (Except.map (Reply.retime f)) ∧
      view f (BankService.new.run jvm es).2.bankRepo =
        view f (BankService.new.run jvm es').2.bankRepo := by
  have hnew : Replicas f BankService.new BankService.new :=
    ⟨⟨Indexed.new, Indexed.new, rfl⟩, rfl⟩
  obtain ⟨hreplies, hr⟩ := h.replicas hnew
  exact ⟨hreplies, hr.repo.view⟩

/-- A machine on which an uploaded contract queues one deposit of 5. -/
def depositJvm : Jvm := Jvm.plain (ContractClass.queueing ["CREATE_MONEY 5"])

/-- A user with balance 0 who uploads the contract. -/
def upload : List Event :=
  [.ordered (Proxy.registerUser (some "bob") (some "secret") (some 0) none),
    .ordered (Proxy.createSmartContract (some "bob") [])]

/-- A deposit of 10 by request. -/
def deposit : Event := .ordered (Proxy.createMoney (some "bob") 0 10)

/-- A pass at the time 0. -/
def drainNow : Event := .drain fun _ _ => 0

/-- The balance of the user at the end of a run. -/
def finalBalance (es : List Event) : Option JLong :=
  ((BankService.new.run depositJvm es).2.bankRepo.findByUserName (some "bob")).map BankEntity.amount

/-- **Replicas diverge:** the same requests, with the pass before the deposit on one replica and
after it on the other, and all lists drained. One balance is 5, since the deposit is refused, and
the other is 15. -/
theorem run_drain_diverges :
    requests (upload ++ [drainNow, deposit]) = requests (upload ++ [deposit, drainNow]) ∧
      (BankService.new.run depositJvm (upload ++ [drainNow, deposit])).2.sR.Drained ∧
      (BankService.new.run depositJvm (upload ++ [deposit, drainNow])).2.sR.Drained ∧
      finalBalance (upload ++ [drainNow, deposit]) = some (some 5) ∧
      finalBalance (upload ++ [deposit, drainNow]) = some (some 15) ∧
      (BankService.new.run depositJvm (upload ++ [drainNow, deposit])).1 ≠
        (BankService.new.run depositJvm (upload ++ [deposit, drainNow])).1 := by
  decide

/-- The same pass on both replicas, and one more on the first where it finds nothing: the balances
agree. -/
theorem run_agree_upload :
    Aligned depositJvm (fun t => t) BankService.new BankService.new
        (drainNow :: (upload ++ [drainNow, deposit])) (upload ++ [drainNow, deposit]) ∧
      view (fun t => t) (BankService.new.run depositJvm
          (drainNow :: (upload ++ [drainNow, deposit]))).2.bankRepo =
        view (fun t => t) (BankService.new.run depositJvm (upload ++ [drainNow, deposit])).2.bankRepo := by
  have h : Aligned depositJvm (fun t => t) BankService.new BankService.new
      (drainNow :: (upload ++ [drainNow, deposit])) (upload ++ [drainNow, deposit]) :=
    .left _ (by decide) (.ordered _ (.ordered _ (.both _ _ (fun _ _ => rfl) (.ordered _ (.nil _ _)))))
  exact ⟨h, (run_agree_of_aligned depositJvm _ _ _ h).2⟩

end NovaBank.Replica
