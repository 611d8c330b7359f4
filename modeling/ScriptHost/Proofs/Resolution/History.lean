import Mathlib.Data.List.Dedup
import Mathlib.Data.List.Induction
import ScriptHost.Proofs.Resolution.Memo
import ScriptHost.Resolution.Lookup

/-!
# Requests over time

The answers of a resolver may change from one request to the next.  The pairs of a name and an origin that a memo
holds after requests are those that have succeeded (`contains_afterAll`), and each keeps the identity of its first
success.  So a pair that has succeeded means the same for ever and no resolver is asked about it again, while one that
has failed is looked up anew, and the calls and the size of the memo can be counted off the requests
(`faithful_history`).
-/

namespace ScriptHost.Resolution.Memo

open ScriptHost.Path

/-- A request at its time: how modules are looked up then, and what is asked. -/
structure Inquiry where
  resolver : Resolver
  disk : Disk
  name : String
  origin : String

namespace Inquiry

/-- The pair that is asked about. -/
def key (q : Inquiry) : Request := Memo.key q.name q.origin

/-- What is found at the time of a request if nothing is remembered. -/
def found (q : Inquiry) : Except Failure Identity := (identify q.resolver q.disk q.name q.origin).1

end Inquiry

/-- The answer to a request at its time, and what is remembered then. -/
def inquire (m : Memo) (q : Inquiry) : Except Failure Identity × Memo := m.resolve q.resolver q.disk q.name q.origin

/-- What is remembered after requests. -/
def afterAll (past : List Inquiry) : Memo := past.foldl (fun m q => (m.inquire q).2) empty

/-- The answer to a request that comes after others. -/
def answer (past : List Inquiry) (q : Inquiry) : Except Failure Identity := ((afterAll past).inquire q).1

/-- Requests, each with those that come before it. -/
def moments (past : List Inquiry) : List Inquiry → List (List Inquiry × Inquiry)
  | [] => []
  | q :: rest => (past, q) :: moments (past ++ [q]) rest

/-- The pairs of the requests that have succeeded, one for each success. -/
def successes (run : List Inquiry) : List Request :=
  ((moments [] run).filter fun (past, q) => (answer past q).toOption.isSome).map fun x => x.2.key

/-- Whether a resolver has to be asked for the answer to a request that comes after others. -/
def isOpen (past : List Inquiry) (q : Inquiry) : Bool := !isShim q.name && !(successes past).contains q.key

private theorem afterAll_concat (past : List Inquiry) (q : Inquiry) :
    afterAll (past ++ [q]) = ((afterAll past).inquire q).2 := by
  rw [afterAll, List.foldl_append]
  rfl

private theorem moments_append (past run run' : List Inquiry) :
    moments past (run ++ run') = moments past run ++ moments (past ++ run) run' := by
  induction run generalizing past with
  | nil => rw [List.append_nil]; rfl
  | cons q rest ih => rw [List.cons_append, moments, moments, ih, List.append_assoc]; rfl

private theorem successes_concat (past : List Inquiry) (q : Inquiry) :
    successes (past ++ [q]) = successes past ++ if (answer past q).toOption.isSome then [q.key] else [] := by
  unfold successes
  rw [moments_append, List.filter_append, List.map_append]
  simp only [moments, List.nil_append, List.filter_cons, List.filter_nil]
  split <;> rfl

/-! ### One request -/

section

variable {m : Memo} {q : Inquiry}

private theorem inquire_of_found {i : Identity} (hf : m.found.get? q.key = some i) : m.inquire q = (.ok i, m) :=
  resolve_of_found hf

private theorem inquire_of_not_found (hf : m.found.get? q.key = none) : (m.inquire q).1 = q.found := by
  unfold inquire
  unfold Inquiry.key at hf
  rw [resolve_answer, hf]
  rfl

private theorem calls_inquire (m : Memo) (q : Inquiry) :
    (m.inquire q).2.calls = m.calls + if isShim q.name || m.found.contains q.key then 0 else 1 := by
  unfold inquire resolve Table.contains Inquiry.key
  cases hf : m.found.get? (key q.name q.origin) with
  | some i => simp
  | none =>
    unfold identify
    cases hs : isShim q.name with
    | true => rfl
    | false =>
      rw [if_neg (by decide)]
      cases (q.resolver.resolve q.disk q.name q.origin).map Identity.ofResolved <;> rfl

private theorem found_inquire_of_error {e : Failure} (he : (m.inquire q).1 = .error e) :
    (m.inquire q).2.found = m.found := by
  unfold inquire resolve at he ⊢
  cases hf : m.found.get? (key q.name q.origin) with
  | some i => rfl
  | none =>
    rw [hf] at he
    rcases hi : identify q.resolver q.disk q.name q.origin with ⟨e | i, n⟩
    · rfl
    · rw [hi] at he
      cases he

private theorem number?_inquire {name origin : String} (hf : (m.found.get? (key name origin)).isSome = true) :
    (m.inquire q).2.number? name origin = m.number? name origin := by
  unfold inquire resolve
  cases hq : m.found.get? (key q.name q.origin) with
  | some i => rfl
  | none =>
    rcases identify q.resolver q.disk q.name q.origin with ⟨e | i, n⟩
    · rfl
    · -- the new key is the last one, and the number is that of an earlier one
      have hmem : key name origin ∈ m.found.keys.reverse := List.mem_reverse.2 (Table.mem_keys_iff.2 hf)
      have hsome : (m.number? name origin).isSome = true := by
        unfold number?
        rw [List.findIdx?_isSome, List.any_eq_true]
        exact ⟨_, hmem, beq_self_eq_true _⟩
      obtain ⟨n, hn⟩ := Option.isSome_iff_exists.1 hsome
      unfold number? at hn ⊢
      dsimp only
      rw [Table.keys_insert_of_not_found hq, List.reverse_cons, List.findIdx?_append, hn]
      rfl

end

/-! ### Requests one after the other -/

private theorem sound_afterAll (past : List Inquiry) : (afterAll past).Sound := by
  induction past using List.reverseRecOn with
  | nil => exact sound_empty
  | append_singleton past q ih =>
    rw [afterAll_concat]
    exact (learned_resolve ..).sound ih

private theorem found_of_append {past : List Inquiry} {request : Request} {i : Identity}
    (hf : (afterAll past).found.get? request = some i) (later : List Inquiry) :
    (afterAll (past ++ later)).found.get? request = some i := by
  induction later using List.reverseRecOn with
  | nil => rwa [List.append_nil]
  | append_singleton later q ih =>
    rw [← List.append_assoc, afterAll_concat]
    exact (learned_resolve ..).kept ih

private theorem number?_append {past : List Inquiry} {name origin : String}
    (hf : ((afterAll past).found.get? (key name origin)).isSome = true) (later : List Inquiry) :
    (afterAll (past ++ later)).number? name origin = (afterAll past).number? name origin := by
  induction later using List.reverseRecOn with
  | nil => rw [List.append_nil]
  | append_singleton later q ih =>
    obtain ⟨i, hi⟩ := Option.isSome_iff_exists.1 hf
    have hstill : ((afterAll (past ++ later)).found.get? (key name origin)).isSome = true := by
      rw [found_of_append hi]
      rfl
    rw [← List.append_assoc, afterAll_concat, number?_inquire hstill, ih]

private theorem found_of_answer {past : List Inquiry} {q : Inquiry} {i : Identity} (ha : answer past q = .ok i) :
    (afterAll (past ++ [q])).found.get? q.key = some i := by
  rw [afterAll_concat]
  show ((afterAll past).resolve q.resolver q.disk q.name q.origin).2.found.get? (Memo.key q.name q.origin) = _
  rw [get?_resolve, if_pos rfl]
  show (answer past q).toOption = some i
  rw [ha]
  rfl

theorem contains_afterAll (past : List Inquiry) (request : Request) :
    (afterAll past).found.contains request = (successes past).contains request := by
  induction past using List.reverseRecOn with
  | nil => rfl
  | append_singleton past q ih =>
    have hget := get?_resolve q.resolver q.disk q.name q.origin (afterAll past) request
    rw [successes_concat, afterAll_concat, Table.contains]
    change ((afterAll past).inquire q).2.found.get? request =
      if request = q.key then (answer past q).toOption else _ at hget
    rw [hget]
    by_cases hkey : request = q.key
    · subst hkey
      rw [if_pos rfl]
      cases ha : (answer past q).toOption with
      | some i => simp
      | none =>
        -- the pair has not succeeded before either, for then it would have been answered
        have hnone : (afterAll past).found.get? q.key = none := by
          refine Option.eq_none_iff_forall_ne_some.2 fun i hi => ?_
          rw [answer, inquire_of_found hi] at ha
          cases ha
        rw [Table.contains, hnone] at ih
        simpa using ih
    · rw [if_neg hkey]
      change (afterAll past).found.contains request = _
      rw [ih]
      split <;> simp [hkey]

/-- The resolvers have been asked as often as a request came whose pair had not succeeded, but for shim paths. -/
private theorem calls_afterAll (run : List Inquiry) :
    (afterAll run).calls = ((moments [] run).filter fun (past, q) => isOpen past q).length := by
  induction run using List.reverseRecOn with
  | nil => rfl
  | append_singleton past q ih =>
    rw [afterAll_concat, calls_inquire, ih, moments_append, List.filter_append, List.length_append, contains_afterAll]
    simp only [moments, List.nil_append, List.filter_cons, List.filter_nil, isOpen]
    cases isShim q.name <;> cases (successes past).contains q.key <;> rfl

/-- As many identities are remembered as different pairs have succeeded. -/
private theorem size_afterAll (run : List Inquiry) : (afterAll run).size = (successes run).dedup.length := by
  have hperm : (afterAll run).found.keys.Perm (successes run).dedup := by
    refine (List.perm_ext_iff_of_nodup (afterAll run).found.keys_nodup (List.nodup_dedup _)).2 fun request => ?_
    have hremembered : request ∈ (afterAll run).found.keys ↔ (afterAll run).found.contains request = true :=
      Table.mem_keys_iff
    rw [contains_afterAll, List.contains_iff_mem] at hremembered
    rw [List.mem_dedup, ← hremembered]
    rfl
  have hlength := hperm.length_eq
  rwa [Table.keys, List.length_map] at hlength

/-! ### Histories -/

/-- How requests are answered, one after the other, while the answers of the resolvers may change. -/
structure Faithful (run : List Inquiry) : Prop where
  /-- Once a pair has succeeded, every later request for it gets the same identity, which is one and the same for all of
  them, and nothing is looked up or remembered. -/
  stable : ∀ {past q between q' rest i}, run = past ++ q :: (between ++ q' :: rest) → answer past q = .ok i →
    q'.key = q.key →
      (afterAll (past ++ q :: between)).inquire q' = (.ok i, afterAll (past ++ q :: between)) ∧
      (afterAll (past ++ q :: between)).number? q'.name q'.origin = (afterAll (past ++ [q])).number? q.name q.origin
  /-- As long as a pair has not succeeded, it is looked up at every request, and answered as it is found then. -/
  retried : ∀ {past q rest}, run = past ++ q :: rest → isOpen past q = true →
    answer past q = q.found ∧ (afterAll (past ++ [q])).calls = (afterAll past).calls + 1
  /-- A request that fails stores nothing. -/
  failed : ∀ {past q rest e}, run = past ++ q :: rest → answer past q = .error e →
    (afterAll (past ++ [q])).found = (afterAll past).found
  /-- A shim path stands for itself, and nothing is looked up. -/
  shim : ∀ {past q rest}, run = past ++ q :: rest → isShim q.name = true →
    answer past q = .ok (.shim q.name) ∧ (afterAll (past ++ [q])).calls = (afterAll past).calls
  calls : (afterAll run).calls = ((moments [] run).filter fun (past, q) => isOpen past q).length
  size : (afterAll run).size = (successes run).dedup.length

/-- Identities are stable and failures are retried, whatever the resolvers answer at different times.  The number of
calls is that of the requests, but for shim paths, whose pair had not succeeded before, and the size of the memo is the
number of different pairs that have succeeded. -/
theorem faithful_history (run : List Inquiry) : Faithful run where
  stable {past q between q' rest i} _ ha hkey := by
    have hfirst := found_of_answer ha
    have hlater := found_of_append hfirst between
    rw [List.append_assoc, List.singleton_append] at hlater
    refine ⟨inquire_of_found (hkey ▸ hlater), ?_⟩
    have hsome : ((afterAll (past ++ [q])).found.get? (key q.name q.origin)).isSome = true :=
      Option.isSome_of_eq_some hfirst
    have hnumber := number?_append hsome between
    rw [List.append_assoc, List.singleton_append] at hnumber
    rw [← hnumber, number?, number?, show key q'.name q'.origin = key q.name q.origin from hkey]
  retried {past q rest} _ ho := by
    rw [isOpen, ← contains_afterAll, Bool.and_eq_true, Bool.not_eq_true', Bool.not_eq_true'] at ho
    obtain ⟨hs, hc⟩ := ho
    refine ⟨inquire_of_not_found (Option.not_isSome_iff_eq_none.1 (Bool.eq_false_iff.1 hc)), ?_⟩
    rw [afterAll_concat, calls_inquire, hs, hc]
    rfl
  failed _ he := by
    rw [afterAll_concat]
    exact found_inquire_of_error he
  shim {past q rest} _ hs := by
    constructor
    · rw [answer, inquire, resolve_answer]
      cases hf : (afterAll past).found.get? (key q.name q.origin) with
      | none => exact identify_of_isShim hs
      | some i =>
        rw [(sound_afterAll past).shim hf hs]
        rfl
    · rw [afterAll_concat, calls_inquire, hs]
      rfl
  calls := calls_afterAll run
  size := size_afterAll run

/-- A script is looked for before it is there, found when it is there, and still known when it is gone, from the same
directory in another spelling. -/
theorem faithful_history_of_retry :
    let there := Disk.empty.write "/r/x.ts" (.text "1")
    let ask (d : Disk) (name origin : String) : Inquiry := ⟨nodeResolver, d, name, origin⟩
    let run := [ask .empty "./x" "/r", ask there "./x" "/r", ask .empty "./x" "/r/.", ask .empty "a-temp.ts" "/r"]
    Faithful run ∧ (afterAll run).calls = 2 ∧ (afterAll run).size = 2 ∧
      answer [] (ask .empty "./x" "/r") = .error (.notFound "./x" "/r") ∧
      (afterAll (run.take 2)).inquire (ask .empty "./x" "/r/.") =
        (.ok (.ofResolved "/r/x.ts"), afterAll (run.take 2)) := by
  intro there ask run
  have hrun := faithful_history run
  have hfound : answer [ask .empty "./x" "/r"] (ask there "./x" "/r") = .ok (.ofResolved "/r/x.ts") := by decide +kernel
  have hcalls : ((moments [] run).filter fun (past, q) => isOpen past q).length = 2 := by decide +kernel
  have hsize : (successes run).dedup.length = 2 := by decide +kernel
  have hkey : (ask .empty "./x" "/r/.").key = (ask there "./x" "/r").key := by decide +kernel
  refine ⟨hrun, hrun.calls.trans hcalls, hrun.size.trans hsize, by decide +kernel, ?_⟩
  have hsplit : run = [ask .empty "./x" "/r"] ++ ask there "./x" "/r" :: ([] ++
    ask .empty "./x" "/r/." :: [ask .empty "a-temp.ts" "/r"]) := rfl
  exact (hrun.stable hsplit hfound hkey).1

end ScriptHost.Resolution.Memo
