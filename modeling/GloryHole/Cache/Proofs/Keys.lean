import GloryHole.Cache.Cache
import GloryHole.Go.Net
import GloryHole.Support.Lists
import GloryHole.Support.Runs

/-!
# The keys of the cache

A key is the name, a colon, the type in decimal and a mark for each flag.  A name may hold any
byte, so the key is read from its end: the marks end in a letter, the number holds no colon.  So an
answer stored for one request is found only by a request with the same name, type and flags.  The
class of the question is not part of it.
-/

namespace GloryHole.Cache

open Go Dns Support.Lists Support.Runs
open Config (CacheConfig)

/-! ## The number -/

def decimalValue (digits : GoString) : Nat := digits.foldl (fun n b => 10 * n + digitVal b) 0

theorem isDigit_decimal {d : Nat} (hd : d < 10) : isDigit (UInt8.ofNat ('0'.toNat + d)) := by
  interval_cases d <;> decide

theorem digitVal_decimal {d : Nat} (hd : d < 10) : digitVal (UInt8.ofNat ('0'.toNat + d)) = d := by
  interval_cases d <;> decide

theorem decimalDigits_isDigit (fuel n : Nat) : ∀ b ∈ decimalDigits fuel n, isDigit b := by
  induction fuel generalizing n with
  | zero => exact fun _ hb => absurd hb List.not_mem_nil
  | succ fuel ih =>
    intro b hb
    rw [decimalDigits] at hb
    split at hb
    · rename_i hn
      rw [List.mem_singleton.mp hb]
      exact isDigit_decimal hn
    · rcases List.mem_append.mp hb with hb | hb
      · exact ih _ b hb
      · rw [List.mem_singleton.mp hb]
        exact isDigit_decimal (Nat.mod_lt n (by decide))

theorem decimalDigits_not_mem {b : UInt8} (hb : isDigit b = false) (n : Nat) :
    b ∉ decimalDigits 5 n := by
  intro hmem
  rw [decimalDigits_isDigit 5 n b hmem] at hb
  cases hb

theorem decimalDigits_ne_nil {fuel : Nat} (hfuel : 0 < fuel) (n : Nat) :
    decimalDigits fuel n ≠ [] := by
  obtain ⟨fuel, rfl⟩ := Nat.exists_eq_succ_of_ne_zero hfuel.ne'
  rw [decimalDigits]
  split <;> simp

theorem decimalValue_decimalDigits {fuel n : Nat} (hn : n < 10 ^ fuel) :
    decimalValue (decimalDigits fuel n) = n := by
  induction fuel generalizing n with
  | zero =>
    rw [Nat.pow_zero, Nat.lt_one_iff] at hn
    rw [hn]
    rfl
  | succ fuel ih =>
    rw [decimalDigits]
    split
    · rename_i hlt
      simp only [decimalValue, List.foldl_cons, List.foldl_nil, digitVal_decimal hlt]
      omega
    · have hdiv : n / 10 < 10 ^ fuel := by
        rw [Nat.div_lt_iff_lt_mul (by decide)]
        rwa [Nat.pow_succ] at hn
      have hvalue := ih hdiv
      unfold decimalValue at hvalue ⊢
      rw [List.foldl_append, hvalue, List.foldl_cons, List.foldl_nil,
        digitVal_decimal (Nat.mod_lt n (by decide))]
      exact Nat.div_add_mod n 10

theorem decimalDigits_inj {p q : UInt16}
    (h : decimalDigits 5 p.toNat = decimalDigits 5 q.toNat) : p = q := by
  have hbound (t : UInt16) : t.toNat < 10 ^ 5 := t.toNat_lt.trans (by decide)
  apply UInt16.toNat_inj.mp
  rw [← decimalValue_decimalDigits (hbound p), h, decimalValue_decimalDigits (hbound q)]

/-! ## The key -/

def flagMark (letter : UInt8) (flag : Bool) : GoString := if flag then [byte ':', letter] else []

theorem cacheKey_eq (domain : GoString) (qtype : UInt16) (doBit cd : Bool) :
    cacheKey domain qtype doBit cd =
      domain ++ byte ':' :: decimalDigits 5 qtype.toNat ++ flagMark (byte 'D') doBit ++
        flagMark (byte 'C') cd := by
  have hcolon : lit ":" = [byte ':'] := rfl
  have hdo : lit ":D" = [byte ':', byte 'D'] := rfl
  have hcd : lit ":C" = [byte ':', byte 'C'] := rfl
  unfold cacheKey flagMark
  rw [hcolon, hdo, hcd, List.append_assoc domain, List.singleton_append]

/-- A mark can be told from a text that does not end in its letter. -/
theorem flagMark_inj {letter : UInt8} {flag flag' : Bool} {s s' : GoString}
    (hs : s.getLast? ≠ some letter) (hs' : s'.getLast? ≠ some letter)
    (h : s ++ flagMark letter flag = s' ++ flagMark letter flag') : s = s' ∧ flag = flag' := by
  have hlast (t : GoString) : (t ++ [byte ':', letter]).getLast? = some letter := by simp
  cases flag with
  | false =>
    cases flag' with
    | false => simpa [flagMark] using h
    | true =>
      apply absurd _ hs
      rw [← List.append_nil s]
      exact (congrArg List.getLast? h).trans (hlast s')
  | true =>
    cases flag' with
    | false =>
      apply absurd _ hs'
      rw [← List.append_nil s']
      exact (congrArg List.getLast? h.symm).trans (hlast s)
    | true => exact ⟨List.append_cancel_right h, rfl⟩

/-- The name and the number end in a digit. -/
theorem numbered_getLast? {letter : UInt8} (hletter : isDigit letter = false) (domain : GoString)
    (qtype : UInt16) :
    (domain ++ byte ':' :: decimalDigits 5 qtype.toNat).getLast? ≠ some letter := by
  have hdigits := decimalDigits_ne_nil (by decide : 0 < 5) qtype.toNat
  intro hlast
  rw [List.getLast?_append_of_ne_nil _ (List.cons_ne_nil _ _), List.getLast?_cons_of_ne_nil hdigits]
    at hlast
  have hdigit := decimalDigits_isDigit 5 qtype.toNat letter (List.mem_of_getLast? hlast)
  rw [hletter] at hdigit
  cases hdigit

/-- With the mark of DO they end in a digit or a D. -/
theorem numbered_flag_getLast? (domain : GoString) (qtype : UInt16) (doBit : Bool) :
    (domain ++ byte ':' :: decimalDigits 5 qtype.toNat ++ flagMark (byte 'D') doBit).getLast? ≠
      some (byte 'C') := by
  cases doBit with
  | false =>
    rw [flagMark, if_neg Bool.false_ne_true, List.append_nil]
    exact numbered_getLast? (by decide) domain qtype
  | true =>
    rw [flagMark, if_pos rfl, List.getLast?_append_of_ne_nil _ (List.cons_ne_nil _ _)]
    decide

/-- A key determines the name, the type and the flags it is made of. -/
theorem cacheKey_inj {domain domain' : GoString} {qtype qtype' : UInt16}
    {doBit doBit' cd cd' : Bool}
    (h : cacheKey domain qtype doBit cd = cacheKey domain' qtype' doBit' cd') :
    domain = domain' ∧ qtype = qtype' ∧ doBit = doBit' ∧ cd = cd' := by
  have hcolon : isDigit (byte ':') = false := by decide
  have hletter : isDigit (byte 'D') = false := by decide
  rw [cacheKey_eq, cacheKey_eq] at h
  obtain ⟨h, hcd⟩ := flagMark_inj (numbered_flag_getLast? domain qtype doBit)
    (numbered_flag_getLast? domain' qtype' doBit') h
  obtain ⟨h, hdo⟩ := flagMark_inj (numbered_getLast? hletter domain qtype)
    (numbered_getLast? hletter domain' qtype') h
  obtain ⟨hdomain, hdigits⟩ := append_cons_inj_right (decimalDigits_not_mem hcolon qtype.toNat)
    (decimalDigits_not_mem hcolon qtype'.toNat) h
  exact ⟨hdomain, decimalDigits_inj hdigits, hdo, hcd⟩

/-! ## Requests -/

structure Asked where
  name : GoString
  qtype : UInt16
  doBit : Bool
  checkingDisabled : Bool
  deriving DecidableEq

def asked (r : Msg) : Option Asked :=
  r.question.head?.map fun q =>
    ⟨q.name, q.qtype, r.isEdns0.any (·.doBit), r.checkingDisabled⟩

theorem makeMsgKey_cons {r : Msg} {q : Question} {qs : List Question} (h : r.question = q :: qs) :
    makeMsgKey r = cacheKey q.name q.qtype (r.isEdns0.any (·.doBit)) r.checkingDisabled := by
  unfold makeMsgKey
  rw [h]
  cases r.isEdns0 <;> rfl

theorem makeMsgKey_inj {r r' : Msg} (hr : r.question ≠ []) (hr' : r'.question ≠ [])
    (h : makeMsgKey r = makeMsgKey r') : asked r = asked r' := by
  unfold asked
  cases hq : r.question with
  | nil => exact absurd hq hr
  | cons q qs =>
    cases hq' : r'.question with
    | nil => exact absurd hq' hr'
    | cons q' qs' =>
      rw [makeMsgKey_cons hq, makeMsgKey_cons hq'] at h
      obtain ⟨hname, htype, hdo, hcd⟩ := cacheKey_inj h
      simp only [List.head?_cons, Option.map_some, hname, htype, hdo, hcd]

theorem getWithTrace_no_question {ω : Type} (c : Interface ω) {r : Msg} (h : r.question = [])
    (now : Int) : (c.getWithTrace r now).2 = none := by
  cases c <;> simp [Interface.getWithTrace, h]

/-! ## Histories -/

/-- The operations of the cache, with their readings of the clock and the order in which an
eviction meets the keys.  `delete` is the removal by `GetWithTrace` of an expired entry, under a
lock of its own. -/
inductive StoreEvent where
  | set (order : List GoString) (now : Int) (r resp : Msg)
  | setBlocked (order : List GoString) (now : Int) (r resp : Msg)
  | getWithTrace (r : Msg) (now : Int)
  | delete (key : GoString)
  | cleanup (now : Int)
  | clear

def Interface.apply (c : Interface Msg) : StoreEvent → Interface Msg
  | .set order now r resp => c.set order now r resp r
  | .setBlocked order now r resp => c.setBlocked order now r resp r
  | .getWithTrace r now => (c.getWithTrace r now).1
  | .delete key => c.mapShards (·.delete key)
  | .cleanup now => c.cleanup now
  | .clear => c.clear

def StoreEvent.Stores (r resp : Msg) : StoreEvent → Prop
  | .set _ _ r' resp' | .setBlocked _ _ r' resp' => r' = r ∧ resp' = resp
  | _ => False

structure StoredBy (events : List StoreEvent) (key : GoString) (m origin : Msg) : Prop where
  key_eq : key = makeMsgKey origin
  question : origin.question ≠ []
  stored : ∃ e ∈ events, e.Stores origin m

theorem Interface.Holds.apply {events : List StoreEvent} {c : Interface Msg}
    (h : c.Holds (StoredBy events)) {e : StoreEvent} (he : e ∈ events) :
    (c.apply e).Holds (StoredBy events) := by
  cases e with
  | set order now r resp | setBlocked order now r resp =>
    simp only [Interface.apply, Interface.set, Interface.setBlocked]
    split
    · exact h
    · exact h.store order r fun hq => ⟨rfl, hq, _, he, rfl, rfl⟩
  | getWithTrace r now => exact (h.getWithTrace r now).1
  | delete key => exact h.mapShards fun _ hshard => hshard.delete key
  | cleanup now => exact h.cleanup now
  | clear => exact c.clear_holds

/-- A hit was stored for a request with the same name, type and flags. -/
theorem hit_answers_question {cfg : CacheConfig} {c : Interface Msg} (hnew : new cfg = some c)
    (history : List StoreEvent) (r : Msg) (now : Int) {m origin : Msg}
    (hhit : ((exec Interface.apply c history).getWithTrace r now).2 = some (m, origin)) :
    asked origin = asked r ∧ ∃ e ∈ history, e.Stores origin m := by
  have hruns : AllSteps Interface.apply (fun _ e => e ∈ history) c history :=
    allSteps_iff_forall_mem.mpr fun _ he => he
  have hholds : (exec Interface.apply c history).Holds (StoredBy history) :=
    invariant_exec (fun _ _ he h => h.apply he) hruns (new_holds hnew)
  have hstored := (hholds.getWithTrace r now).2 m origin hhit
  have hquestion : r.question ≠ [] := by
    intro hnil
    rw [getWithTrace_no_question _ hnil] at hhit
    cases hhit
  exact ⟨makeMsgKey_inj hstored.question hquestion hstored.key_eq.symm, hstored.stored⟩

def keyConfig (shardCount : Int) : CacheConfig :=
  { enabled := true, maxEntries := 100, shardCount := shardCount, negativeTTL := 300 * second }

def requestOf (id : UInt16) (qclass : UInt16) (cd : Bool) : Msg :=
  { id := id, question := [⟨lit "version.bind.", 16, qclass⟩], checkingDisabled := cd }

def negativeAnswer : Msg := { response := true, rcode := rcodeNameError }

def twoStores : List StoreEvent :=
  [.set [] 0 (requestOf 1 1 false) negativeAnswer, .set [] 0 (requestOf 2 1 true) {}]

/-- The next request without CD gets the answer stored without it. -/
theorem hit_without_checking :
    ((exec Interface.apply (.plain (keyConfig 0) ⟨[], 100⟩) twoStores).getWithTrace
      (requestOf 3 1 false) 1).2 = some (negativeAnswer, requestOf 1 1 false) ∧
      asked (requestOf 1 1 false) = asked (requestOf 3 1 false) ∧
      ∃ e ∈ twoStores, e.Stores (requestOf 1 1 false) negativeAnswer := by
  have hnew : new (keyConfig 0) =
      some (Interface.plain (keyConfig 0) (⟨[], 100⟩ : CacheShard Msg)) := rfl
  have hhit : ((exec Interface.apply (.plain (keyConfig 0) ⟨[], 100⟩) twoStores).getWithTrace
      (requestOf 3 1 false) 1).2 = some (negativeAnswer, requestOf 1 1 false) := by
    decide +kernel
  exact ⟨hhit, hit_answers_question hnew twoStores _ 1 hhit⟩

/-- An answer for the class IN is served to a request for the class CH, by either cache. -/
theorem other_class_served :
    (requestOf 1 1 false).question ≠ (requestOf 2 3 false).question ∧
    ∀ shardCount ∈ [0, 4],
      (new (keyConfig shardCount)).map (fun c : Interface Msg =>
        ((c.apply (.set [] 0 (requestOf 1 1 false) negativeAnswer)).getWithTrace
          (requestOf 2 3 false) 1).2) =
      some (some (negativeAnswer, requestOf 1 1 false)) := by
  decide +kernel

end GloryHole.Cache
