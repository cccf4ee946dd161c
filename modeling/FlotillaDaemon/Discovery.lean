import FlotillaDaemon.Cpp.Text
import FlotillaDaemon.Framing
import FlotillaDaemon.Machine
import Mathlib

/-! The discovery of the daemon in a local network. A worker looks for the IPv4 addresses of the
host about once an hour, keeps the first one as the canonical address, and registers each with a
server over HTTP. What the system and the network answer is a parameter of each round. -/
namespace FlotillaDaemon
open Cpp Framing

structure Address where
  first : UInt8
  second : UInt8
  third : UInt8
  fourth : UInt8
  deriving DecidableEq

inductive SocketAddress
  | inet (address : Address)
  | other
  deriving DecidableEq

/-- An entry of the list that `getifaddrs` fills; its address may be null. -/
structure Interface where
  addr : Option SocketAddress

/-- One connection of `tcp_client`: how many writes complete, and the bytes that come before the
connection ends or a read runs out of time. -/
structure Peer where
  connects : Bool
  writes : Nat
  response : Text

structure Surroundings where
  interfaces : Option (List Interface)
  peer : Nat → Peer

namespace Address

def octets (a : Address) : List UInt8 := [a.first,a.second,a.third,a.fourth]

/-- `inet_ntop(AF_INET, ..)`. -/
def text (a : Address) : Text := ['.'].intercalate (a.octets.map fun octet => decimal octet.toNat)

def readOctet (field : Text) : Option UInt8 :=
  let value := Nat.ofDigitChars 10 field 0
  if decimal value = field ∧ value < 256 then some (UInt8.ofNat value) else none

def read (text : Text) : Option Address :=
  match (text.splitOn '.').mapM readOctet with
  | some [first,second,third,fourth] => some ⟨first,second,third,fourth⟩
  | _ => none

end Address

/-- `(buf[0] == '1' && buf[1] == '6' && buf[2] == '9') || (.. '1' .. '2' .. '7')`. -/
def skipped (buf : Text) : Bool := beginsWith "169".toList buf || beginsWith "127".toList buf

def Interface.found (entry : Interface) : Option Text :=
  match entry.addr with
  | some (.inet address) => if skipped address.text then none else some address.text
  | _ => none

def linEnumerateIpv4 (interfaces : Option (List Interface)) : Bool × List Text :=
  match interfaces with
  | none => (false,[])
  | some entries =>
    let addresses := entries.filterMap Interface.found
    (decide (addresses.length > 0),addresses)

/-- `async_read_until` up to a `\n`, and `getline`. An exception ends what comes before one. -/
def readLine? (input : Text) : Option (Text × Text) :=
  match input.dropWhile (· ≠ '\n') with
  | [] => none
  | _ :: rest => some (input.takeWhile (· ≠ '\n'),rest)

theorem readLine?_some_iff (input line rest : Text) :
    readLine? input = some (line,rest) ↔ input = line ++ '\n' :: rest ∧ '\n' ∉ line := by
  have whole := List.takeWhile_append_dropWhile (p := (· ≠ '\n')) (l := input)
  have free : '\n' ∉ input.takeWhile (· ≠ '\n') := fun inside => by simpa using List.mem_takeWhile_imp inside
  unfold readLine?
  constructor
  · intro read
    split at read
    next => contradiction
    next c tail cut =>
      obtain ⟨rfl,rfl⟩ := Prod.mk.inj (Option.some.inj read)
      have stop : c = '\n' := by
        have head := List.head?_dropWhile_not (· ≠ '\n') input
        rw [cut] at head
        simpa using head
      rw [cut,stop] at whole
      exact ⟨whole.symm,free⟩
  · rintro ⟨rfl,absent⟩
    have inside : ∀ c ∈ line, decide (c ≠ '\n') = true := fun c member =>
      decide_eq_true fun same => absent (same ▸ member)
    rw [List.dropWhile_append_of_pos inside,List.takeWhile_append_of_pos inside]
    simp

theorem readLine?_shortens (input line rest : Text) (read : readLine? input = some (line,rest)) :
    rest.length < input.length := by
  rw [((readLine?_some_iff input line rest).mp read).1,List.length_append,List.length_cons]
  omega

/-- The loop that reads on until a line begins with `ok`, or until a read throws. -/
def awaitOk (response : Text) : Bool :=
  match read : readLine? response with
  | none => false
  | some (line,rest) =>
    have _shorter := readLine?_shortens response line rest read
    if line.take 2 = "ok".toList then true else awaitOk rest
termination_by response.length

def requestLines (ipv4 : Text) : List Text :=
  ["GET /add?ipv4=".toList ++ ipv4 ++ " HTTP/1.1\r".toList,"Host: discover.flotil.la\r".toList,
    "Accept: */*\r".toList,"Connection: close\r".toList,"\r".toList]

/-- What is written to the server, and whether the address counts as registered. -/
def httpNotifyIpv4 (peer : Peer) (ipv4 : Text) : Text × Bool :=
  if peer.connects = false then ([],false)
  else
    let written := frames '\n' ((requestLines ipv4).take peer.writes)
    if peer.writes < (requestLines ipv4).length then (written,false)
    else
      match readLine? peer.response with
      | none => (written,false)
      | some (line,rest) => (written,if line.take 5 = "HTTP/".toList then awaitOk rest else false)

/-- The canonical address, and each address with the outcome of its registration. -/
def discoverIpv4 (around : Surroundings) (canonicalAddress : Text) : Text × List (Text × Bool) :=
  match linEnumerateIpv4 around.interfaces with
  | (true,first :: rest) =>
    (first,(first :: rest).zipIdx.map fun found => (found.1,(httpNotifyIpv4 (around.peer found.2) found.1).2))
  | _ => (canonicalAddress,[])

def notifyInterval : Nat := 3600

structure IpNotify where
  seconds : Nat
  canonicalAddress : Text

def workerIpNotify : Machine IpNotify Surroundings (List (Text × Bool)) where
  step s around :=
    let seconds := if s.seconds > notifyInterval then 0 else s.seconds
    if seconds = 0
    then (⟨seconds + 1,(discoverIpv4 around s.canonicalAddress).1⟩,(discoverIpv4 around s.canonicalAddress).2)
    else (⟨seconds + 1,s.canonicalAddress⟩,[])

section Addresses

theorem Address.text_eq (a : Address) : a.text = decimal a.first.toNat ++ '.' :: (decimal a.second.toNat ++
    '.' :: (decimal a.third.toNat ++ '.' :: decimal a.fourth.toNat)) := by
  simp [text,octets,List.intercalate]

theorem decimal_octet (octet : UInt8) : (decimal octet.toNat).length ≤ 3 ∧ '.' ∉ decimal octet.toNat := by
  have bound := octet.toNat_lt
  refine ⟨(Nat.length_toDigits_le_iff (by omega) (by omega)).mpr (by omega),fun inside => ?_⟩
  exact absurd (Nat.isDigit_of_mem_toDigits (by omega) (by omega) inside) (by decide)

theorem readOctet_decimal (octet : UInt8) : Address.readOctet (decimal octet.toNat) = some octet := by
  have value : Nat.ofDigitChars 10 (decimal octet.toNat) 0 = octet.toNat := Nat.ofDigitChars_ten_toDigits
  rw [Address.readOctet,value,if_pos ⟨rfl,octet.toNat_lt⟩,UInt8.ofNat_toNat]

theorem Address.read_text (a : Address) : Address.read a.text = some a := by
  have fields : a.text.splitOn '.' = a.octets.map fun octet => decimal octet.toNat := by
    refine List.splitOn_intercalate '.' ?_ (by simp [octets])
    intro field member
    obtain ⟨octet,_,rfl⟩ := List.mem_map.mp member
    exact (decimal_octet octet).2
  rw [read,fields]
  simp [octets,readOctet_decimal]

theorem beginsWith_octet (key : Text) (n : Nat) (a : Address) (three : key.length = 3) (plain : '.' ∉ key)
    (own : key = decimal n) (small : n < 256) : beginsWith key a.text = true ↔ a.first = UInt8.ofNat n := by
  obtain ⟨short,_⟩ := decimal_octet a.first
  rw [beginsWith_iff,a.text_eq]
  generalize decimal a.second.toNat ++ '.' :: _ = rest
  constructor
  · intro starts
    have within : key <+: decimal a.first.toNat := by
      rcases List.prefix_or_prefix_of_prefix starts (List.prefix_append (decimal a.first.toNat ++ ['.']) rest |>.trans
        (by simp)) with inside | outside
      · rcases List.prefix_concat_iff.mp inside with same | shorter
        · exact absurd (same ▸ List.mem_append_right _ List.mem_cons_self) plain
        · exact shorter
      · exact absurd (outside.subset (List.mem_append_right _ List.mem_cons_self)) plain
    have same := within.eq_of_length_le (by omega)
    have value : n = a.first.toNat := by
      have read := congrArg (Nat.ofDigitChars 10 · 0) (own.symm.trans same)
      simpa [decimal,Nat.ofDigitChars_ten_toDigits] using read
    rw [value,UInt8.ofNat_toNat]
  · intro same
    rw [same,UInt8.toNat_ofNat_of_lt' small,← own]
    exact List.prefix_append _ _

/-- The addresses that are not skipped, told by their octets. -/
def Address.usable (a : Address) : Bool := decide (a.first ≠ 169 ∧ a.first ≠ 127)

theorem skipped_iff (a : Address) : skipped a.text = !a.usable := by
  have link := beginsWith_octet "169".toList 169 a rfl (by decide) (by decide) (by omega)
  have loop := beginsWith_octet "127".toList 127 a rfl (by decide) (by decide) (by omega)
  rw [Bool.eq_iff_iff,skipped,Bool.or_eq_true,link,loop,Bool.not_eq_true',Address.usable,decide_eq_false_iff_not,
    not_and_or,not_not,not_not]
  exact Iff.rfl

def Interface.address (entry : Interface) : Option Address :=
  match entry.addr with
  | some (.inet address) => if address.usable then some address else none
  | _ => none

def Surroundings.usable (around : Surroundings) : List Address := (around.interfaces.getD []).filterMap Interface.address

theorem found_eq (entry : Interface) : entry.found = entry.address.map Address.text := by
  unfold Interface.found Interface.address
  split
  · rw [skipped_iff]
    cases Address.usable _ <;> rfl
  · rfl

theorem linEnumerateIpv4_eq (around : Surroundings) :
    linEnumerateIpv4 around.interfaces = (decide (around.usable ≠ []),around.usable.map Address.text) := by
  unfold linEnumerateIpv4 Surroundings.usable
  cases around.interfaces with
  | none => rfl
  | some entries =>
    have found : entries.filterMap Interface.found = (entries.filterMap Interface.address).map Address.text := by
      rw [List.map_filterMap]
      exact List.filterMap_congr fun entry _ => found_eq entry
    dsimp only [Option.getD_some]
    rw [found,List.length_map]
    exact Prod.ext (decide_eq_decide.mpr List.length_pos_iff) rfl

end Addresses

section Registration

/-- A response has a status line and, somewhere behind it, a line that begins with `ok`. A last
line without its `\n` is not one. -/
def Acknowledged (response : Text) : Prop :=
  ∃ status lines rest, response = frames '\n' (status :: lines) ++ rest ∧ (∀ line ∈ status :: lines, '\n' ∉ line) ∧
    "HTTP/".toList <+: status ∧ ∃ line ∈ lines, "ok".toList <+: line

theorem take_eq_iff (key line : Text) : line.take key.length = key ↔ key <+: line :=
  ⟨fun same => same ▸ List.take_prefix _ _,fun starts => (List.prefix_iff_eq_take.mp starts).symm⟩

theorem awaitOk_iff (response : Text) : awaitOk response = true ↔
    ∃ lines rest, response = frames '\n' lines ++ rest ∧ (∀ line ∈ lines, '\n' ∉ line) ∧
      ∃ line ∈ lines, "ok".toList <+: line := by
  induction response using awaitOk.induct with
  | case1 response missing =>
    rw [awaitOk]
    split
    next =>
      refine iff_of_false Bool.false_ne_true ?_
      rintro ⟨lines,rest,rfl,free,line,member,_⟩
      obtain ⟨first,later,rfl⟩ := List.exists_cons_of_ne_nil (List.ne_nil_of_mem member)
      have shape : frames '\n' (first :: later) ++ rest = first ++ '\n' :: (frames '\n' later ++ rest) := by
        rw [frames_cons,List.append_assoc]
        rfl
      have read := (readLine?_some_iff _ _ _).mpr ⟨shape,free first List.mem_cons_self⟩
      rw [missing] at read
      contradiction
    next line rest read =>
      rw [missing] at read
      contradiction
  | case2 response line rest read shorter ok =>
    obtain ⟨shape,free⟩ := (readLine?_some_iff response line rest).mp read
    have starts := (take_eq_iff "ok".toList line).mp ok
    refine iff_of_true ?_ ⟨[line],rest,by rw [shape,frames_cons]; simp [frames],by simpa using free,line,by simp,starts⟩
    rw [awaitOk]
    split
    next missing =>
      rw [missing] at read
      contradiction
    next other behind again =>
      obtain ⟨rfl,rfl⟩ := Prod.mk.inj (Option.some.inj (again.symm.trans read))
      rw [if_pos ok]
  | case3 response line rest read shorter other ih =>
    obtain ⟨shape,free⟩ := (readLine?_some_iff response line rest).mp read
    have step : awaitOk response = awaitOk rest := by
      rw [awaitOk]
      split
      next missing =>
        rw [missing] at read
        contradiction
      next following behind again =>
        obtain ⟨rfl,rfl⟩ := Prod.mk.inj (Option.some.inj (again.symm.trans read))
        rw [if_neg other]
    rw [step,ih]
    constructor
    · rintro ⟨lines,left,rfl,frees,own⟩
      refine ⟨line :: lines,left,?_,List.forall_mem_cons.mpr ⟨free,frees⟩,?_⟩
      · rw [shape,frames_cons,List.append_assoc]
        rfl
      · obtain ⟨found,member,starts⟩ := own
        exact ⟨found,List.mem_cons_of_mem _ member,starts⟩
    · rintro ⟨lines,left,same,frees,found,member,starts⟩
      obtain ⟨first,later,rfl⟩ := List.exists_cons_of_ne_nil (List.ne_nil_of_mem member)
      rw [shape,frames_cons,List.append_assoc] at same
      obtain ⟨rfl,behind⟩ := first_unique '\n' line first rest _ free (frees first List.mem_cons_self) same
      refine ⟨later,left,behind,fun l inside => frees l (List.mem_cons_of_mem _ inside),found,?_,starts⟩
      rcases List.mem_cons.mp member with rfl | inside
      · exact absurd ((take_eq_iff "ok".toList found).mpr starts) other
      · exact inside

def uncarried (line : Text) : Option Text := if line.getLast? = some '\r' then some line.dropLast else none

/-- The address in the request line, where all lines of the request up to the empty one are there. -/
def readRequest (request : Text) : Option Address := do
  let lines ← (request.splitOn '\n').dropLast.mapM uncarried
  if lines.getLast? ≠ some [] then failure
  let target ← (← lines.head?).dropPrefix? "GET /add?ipv4=".toList
  Address.read (target.takeWhile (· ≠ ' '))

theorem address_plain (a : Address) (c : Char) (inside : c ∈ a.text) : c.isDigit = true ∨ c = '.' := by
  have digits (octet : UInt8) (own : c ∈ decimal octet.toNat) : c.isDigit = true :=
    Nat.isDigit_of_mem_toDigits (by omega) (by omega) own
  rw [a.text_eq] at inside
  simp only [List.mem_append,List.mem_cons] at inside
  rcases inside with own | dot | own | dot | own | dot | own
  · exact Or.inl (digits _ own)
  · exact Or.inr dot
  · exact Or.inl (digits _ own)
  · exact Or.inr dot
  · exact Or.inl (digits _ own)
  · exact Or.inr dot
  · exact Or.inl (digits _ own)

def Address.bodies (a : Address) : List Text :=
  ["GET /add?ipv4=".toList ++ a.text ++ " HTTP/1.1".toList,"Host: discover.flotil.la".toList,"Accept: */*".toList,
    "Connection: close".toList,[]]

theorem requestLines_eq (a : Address) : requestLines a.text = a.bodies.map (· ++ ['\r']) := by
  simp only [requestLines,Address.bodies,List.map_cons,List.map_nil,List.append_assoc]
  rfl

theorem bodies_single (a : Address) : ∀ line ∈ a.bodies.map (· ++ ['\r']), '\n' ∉ line := by
  have free : '\n' ∉ a.text := by
    intro inside
    rcases address_plain a _ inside with digit | dot
    · exact absurd digit (by decide)
    · exact absurd dot (by decide)
  intro line member
  obtain ⟨body,own,rfl⟩ := List.mem_map.mp member
  simp only [Address.bodies,List.mem_cons,List.not_mem_nil,or_false] at own
  rcases own with rfl | rfl | rfl | rfl | rfl
  · simp [free]
  all_goals decide

theorem uncarried_mapM (bodies : List Text) : (bodies.map (· ++ ['\r'])).mapM uncarried = some bodies := by
  induction bodies with
  | nil => rfl
  | cons body rest ih =>
    have own : uncarried (body ++ ['\r']) = some body := by
      rw [uncarried,if_pos List.getLast?_concat,List.dropLast_concat]
    rw [List.map_cons,List.mapM_cons,own,ih]
    rfl

/-- What a server gets of a request that breaks off after some of its lines. -/
theorem readRequest_sent (a : Address) (count : Nat) :
    readRequest (frames '\n' ((requestLines a.text).take count)) = if 5 ≤ count then some a else none := by
  have sent : (requestLines a.text).take count = (a.bodies.take count).map (· ++ ['\r']) := by
    rw [requestLines_eq,List.map_take]
  have free : ∀ line ∈ (a.bodies.take count).map (· ++ ['\r']), '\n' ∉ line := by
    rw [List.map_take]
    exact fun line member => bodies_single a line (List.mem_of_mem_take member)
  rw [readRequest,sent,splitOn_frames '\n' _ free,List.dropLast_concat,uncarried_mapM]
  split
  next all =>
    have whole : a.bodies.take count = a.bodies := List.take_of_length_le (by simpa [Address.bodies] using all)
    have target : ("GET /add?ipv4=".toList ++ a.text ++ " HTTP/1.1".toList).dropPrefix? "GET /add?ipv4=".toList =
        some (a.text ++ " HTTP/1.1".toList) :=
      List.dropPrefix?_eq_some_iff.mpr ⟨_,by rw [List.append_assoc],beq_self_eq_true _⟩
    have plain : ∀ c ∈ a.text, decide (c ≠ ' ') = true := by
      intro c inside
      refine decide_eq_true fun same => ?_
      rcases address_plain a c inside with digit | dot
      · exact absurd (same ▸ digit) (by decide)
      · exact absurd (same.symm.trans dot) (by decide)
    have cut : (a.text ++ " HTTP/1.1".toList).takeWhile (· ≠ ' ') = a.text := by
      rw [List.takeWhile_append_of_pos plain]
      exact List.append_nil _
    rw [whole]
    change (("GET /add?ipv4=".toList ++ a.text ++ " HTTP/1.1".toList).dropPrefix? "GET /add?ipv4=".toList).bind
      (fun target => Address.read (target.takeWhile (· ≠ ' '))) = some a
    rw [target,Option.bind_some,cut,a.read_text]
  next part =>
    have unfinished : (a.bodies.take count).getLast? ≠ some [] := by
      have upToFour : count = 0 ∨ count = 1 ∨ count = 2 ∨ count = 3 ∨ count = 4 := by omega
      rcases upToFour with rfl | rfl | rfl | rfl | rfl <;> simp [Address.bodies]
    change (if (a.bodies.take count).getLast? ≠ some [] then none else _ : Option Address) = none
    rw [if_pos unfinished]

end Registration

/-- An address counts as registered exactly when the server was sent a whole request for it and
answered with a status line and, in whatever place behind it, a line that begins with `ok`. -/
theorem notify_registers_iff (peer : Peer) (a : Address) :
    (httpNotifyIpv4 peer a.text).2 = true ↔
      readRequest (httpNotifyIpv4 peer a.text).1 = some a ∧ Acknowledged peer.response := by
  have size : (requestLines a.text).length = 5 := rfl
  unfold httpNotifyIpv4
  rw [size]
  by_cases connects : peer.connects = false
  · rw [if_pos connects]
    exact iff_of_false Bool.false_ne_true fun read => nomatch read.1
  rw [if_neg connects]
  by_cases part : peer.writes < 5
  · have unread : readRequest (frames '\n' ((requestLines a.text).take peer.writes)) = none := by
      rw [readRequest_sent,if_neg (Nat.not_le_of_lt part)]
    dsimp only
    rw [if_pos part]
    refine iff_of_false Bool.false_ne_true fun read => ?_
    rw [unread] at read
    exact nomatch read.1
  have whole : readRequest (frames '\n' ((requestLines a.text).take peer.writes)) = some a := by
    rw [readRequest_sent,if_pos (Nat.le_of_not_lt part)]
  dsimp only
  rw [if_neg part]
  cases read : readLine? peer.response with
  | none =>
    refine iff_of_false Bool.false_ne_true ?_
    rintro ⟨_,status,lines,rest,shape,free,_⟩
    rw [frames_cons,List.append_assoc] at shape
    rw [(readLine?_some_iff _ _ _).mpr ⟨shape,free status List.mem_cons_self⟩] at read
    contradiction
  | some found =>
    obtain ⟨status,rest⟩ := found
    obtain ⟨shape,free⟩ := (readLine?_some_iff _ _ _).mp read
    dsimp only
    rw [and_iff_right whole]
    constructor
    · intro registered
      split at registered
      next http =>
        obtain ⟨lines,left,rfl,frees,own⟩ := (awaitOk_iff rest).mp registered
        refine ⟨status,lines,left,?_,List.forall_mem_cons.mpr ⟨free,frees⟩,(take_eq_iff _ _).mp http,own⟩
        rw [shape,frames_cons,List.append_assoc]
        rfl
      next => contradiction
    · rintro ⟨first,lines,left,same,frees,http,own⟩
      rw [shape,frames_cons,List.append_assoc] at same
      obtain ⟨rfl,rfl⟩ := first_unique '\n' status first rest _ free (frees first List.mem_cons_self) same
      rw [if_pos (show status.take 5 = "HTTP/".toList from (take_eq_iff _ _).mpr http)]
      exact (awaitOk_iff _).mpr ⟨lines,left,rfl,fun line inside => frees line (List.mem_cons_of_mem _ inside),own⟩

section Schedule

/-- The rounds in which the worker looks for addresses, where `start` rounds are over. -/
def due (start : Nat) (arounds : List Surroundings) : List Surroundings :=
  ((arounds.zipIdx start).filter fun around => around.2 % (notifyInterval + 1) = 0).map Prod.fst

def fronts (arounds : List Surroundings) : List Text := arounds.filterMap fun around => around.usable.head?.map Address.text

theorem discoverIpv4_eq (around : Surroundings) (canonicalAddress : Text) :
    (discoverIpv4 around canonicalAddress).1 = (fronts [around]).getLast?.getD canonicalAddress ∧
      (discoverIpv4 around canonicalAddress).2.map Prod.fst = around.usable.map Address.text := by
  unfold discoverIpv4
  rw [linEnumerateIpv4_eq]
  cases found : around.usable with
  | nil =>
    have nothing : fronts [around] = [] := by simp [fronts,found]
    rw [nothing]
    exact ⟨rfl,rfl⟩
  | cons first rest =>
    have front : fronts [around] = [first.text] := by simp [fronts,found]
    rw [front,List.map_cons,decide_eq_true (List.cons_ne_nil first rest)]
    refine ⟨rfl,?_⟩
    dsimp only
    rw [List.map_map]
    exact List.zipIdx_map_fst 0 _

theorem due_cons (start : Nat) (around : Surroundings) (rest : List Surroundings) :
    due start (around :: rest) =
      (if start % (notifyInterval + 1) = 0 then [around] else []) ++ due (start + 1) rest := by
  unfold due
  rw [List.zipIdx_cons]
  by_cases now : start % (notifyInterval + 1) = 0
  · rw [if_pos now,List.filter_cons_of_pos (by simpa using now)]
    rfl
  · rw [if_neg now,List.filter_cons_of_neg (by simpa using now)]
    rfl

theorem getLast_append_getD (earlier later : List Text) (initial : Text) :
    (earlier ++ later).getLast?.getD initial = later.getLast?.getD (earlier.getLast?.getD initial) := by
  rw [List.getLast?_append]
  cases later.getLast? <;> rfl

theorem notifier_run (start : Nat) (s : IpNotify) (arounds : List Surroundings)
    (clock : start % (notifyInterval + 1) = s.seconds % (notifyInterval + 1) ∧ s.seconds ≤ notifyInterval + 1) :
    (workerIpNotify.run s arounds).canonicalAddress = (fronts (due start arounds)).getLast?.getD s.canonicalAddress ∧
      (workerIpNotify.emitted s arounds).map Prod.fst =
        (due start arounds).flatMap (fun around => around.usable.map Address.text) := by
  induction arounds generalizing start s with
  | nil => exact ⟨rfl,rfl⟩
  | cons around rest ih =>
    obtain ⟨found,attempted⟩ := discoverIpv4_eq around s.canonicalAddress
    have turn : (if s.seconds > notifyInterval then 0 else s.seconds) = 0 ↔ start % (notifyInterval + 1) = 0 := by
      unfold notifyInterval at clock ⊢
      split <;> omega
    rw [due_cons,Machine.run,Machine.emitted]
    by_cases now : start % (notifyInterval + 1) = 0
    · have step : workerIpNotify.step s around =
          (⟨1,(discoverIpv4 around s.canonicalAddress).1⟩,(discoverIpv4 around s.canonicalAddress).2) := by
        dsimp only [workerIpNotify]
        rw [turn.mpr now,if_pos rfl]
      obtain ⟨canonical,said⟩ := ih (start + 1) ⟨1,(discoverIpv4 around s.canonicalAddress).1⟩ (by
        unfold notifyInterval at now ⊢
        dsimp only
        omega)
      rw [step,if_pos now,List.map_append,attempted,said,canonical,found]
      refine ⟨?_,by rw [List.singleton_append,List.flatMap_cons]⟩
      rw [← getLast_append_getD]
      exact congrArg (fun texts : List Text => texts.getLast?.getD s.canonicalAddress) List.filterMap_append.symm
    · have step : workerIpNotify.step s around =
          (⟨s.seconds + 1,s.canonicalAddress⟩,[]) := by
        dsimp only [workerIpNotify]
        rw [if_neg (mt turn.mp now)]
        unfold notifyInterval at clock now ⊢
        rw [if_neg (by omega)]
      rw [step,if_neg now]
      exact ih (start + 1) ⟨s.seconds + 1,s.canonicalAddress⟩ (by
        unfold notifyInterval at clock now ⊢
        dsimp only
        omega)

end Schedule

/-- The worker looks for addresses in its first round and in each round that comes 3601 rounds
after such a round. It attempts to register the usable addresses in their order, and the canonical
address is the first one of the last of these rounds that found any. -/
theorem discovery_run (canonicalAddress : Text) (arounds : List Surroundings) :
    (workerIpNotify.run ⟨0,canonicalAddress⟩ arounds).canonicalAddress =
        (fronts (due 0 arounds)).getLast?.getD canonicalAddress ∧
      (workerIpNotify.emitted ⟨0,canonicalAddress⟩ arounds).map Prod.fst =
        (due 0 arounds).flatMap (fun around => around.usable.map Address.text) :=
  notifier_run 0 ⟨0,canonicalAddress⟩ arounds ⟨rfl,Nat.zero_le _⟩

end FlotillaDaemon
