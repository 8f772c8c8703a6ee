import Mathlib.Data.List.Infix
import Mathlib.Data.List.Pairwise
import Pma.ArrayWrite
import Pma.Interface

namespace Pma

/-!
# The set command of the console

`vty/vty.c` looks up the word that stands behind `set` in a table of commands and
calls the function of the command with the value behind the word.  The value is
what `strtok` leaves, with the line end where it is the last thing on the line.
-/

namespace Vty

/-- A string of C. -/
structure CString where
  chars : List Char
  noNul : '\x00' ∉ chars

/-! ## The configuration -/

/-- The fields of `struct ic_conf` that the console sets. -/
structure IcConf where
  routerIp : UInt32
  localIp : UInt32
  netmask : UInt32
  outside : Int32
  hHelloVal : UInt32
  hDeadVal : UInt32
  lHelloVal : UInt32
  lDeadVal : UInt32
  deriving DecidableEq

/-- The fields of `struct dbm_conf` that the console sets. -/
structure DbmConf where
  snapshootTimeval : Int32
  policyType : Int32
  deriving DecidableEq

/-- The field of `struct pea_conf` that the console sets. -/
structure PeaConf where
  routerIp : UInt32
  deriving DecidableEq

/-- The fields of `struct conf` that the console sets. -/
structure Conf where
  serverPort : Int32
  alcaPort : Int32
  logsrvPort : Int32
  commType : Int32
  alcaIp : Vector Char 46
  serverIp : Vector Char 46
  logsrvIp : Vector Char 46
  icConfig : IcConf
  dbmConfig : DbmConf
  peaConfig : PeaConf
  deriving DecidableEq

/-- The modules that are sent their configuration. -/
inductive Module where
  | icm
  | dbm
  deriving Repr, DecidableEq

/-! ## The setters -/

/-- The functions of type `value_setter`. -/
inductive ValueSetter where
  | setBmCommtype
  | setBmPmserverip
  | setBmPmserverport
  | setBmAlcaaddress
  | setBmAlcaport
  | setBmLogsrvaddress
  | setBmLogsrvport
  | setRouterip
  | setLocalip
  | setLocalmask
  | setOutside
  | setIcHelloHTimeval
  | setIcHelloLTimeval
  | setIcDeadHTimeval
  | setIcDeadLTimeval
  | setDbmSnapshootTimeval
  | setDbmPolicytype
  | setPeaOspfHello
  | setPeaOspfDead
  deriving Repr, DecidableEq

/-- What a setter returns and leaves, and the modules it sends their configuration to. -/
structure Called where
  ret : Int32
  conf : Conf
  told : List Module
  deriving DecidableEq

/-- What goes wrong on the console. -/
inductive Fault where
  | outsideTable
  | nullCall
  | outsideArray
  deriving Repr, DecidableEq

/-- `int len = strlen(addr)-1;` -/
def lineLength (addr : List Char) : Int32 :=
  Int32.ofInt ((addr.length : Int) - 1)

/--
`strncpy` of `count` characters: zeros where the text is shorter.  A negative
count is more than any array holds once it is a `size_t`.
-/
def strncpy {size : Nat} (array : Vector Char size) (text : List Char) (count : Int32) :
    Option (Vector Char size) :=
  let count := count.toInt
  if 0 ≤ count ∧ count.toNat ≤ size then
    ArrayWrite.writeAll array 0
      (text.take count.toNat ++ List.replicate (count.toNat - text.length) '\x00')
  else
    none

/-- A setter that reads a number, checks it and stores it. -/
def setNumber
    (inRange : Int32 → Bool)
    (store : Int32 → Conf → Conf)
    (told : List Module)
    (ret : Int32)
    (args : List Char)
    (conf : Conf) : Except Fault Called :=
  let val := atoi (String.ofList args)
  if inRange val then
    .ok ⟨ret, store val conf, told⟩
  else
    .ok ⟨-1, conf, []⟩

/-- A setter that copies all but the last character of its text into an array. -/
def setText
    (field : Conf → Vector Char 46)
    (store : Vector Char 46 → Conf → Conf)
    (args : List Char)
    (conf : Conf) : Except Fault Called :=
  let len := lineLength args
  if len = 0 then
    .ok ⟨-1, conf, []⟩
  else
    match strncpy (field conf) args len with
    | none => .error .outsideArray
    | some array => .ok ⟨0, store array conf, []⟩

/-- A setter that reads an address with `inet_pton`. -/
def setAddress
    (store : UInt32 → Conf → Conf)
    (args : List Char)
    (conf : Conf) : Except Fault Called :=
  if lineLength args = 0 then
    .ok ⟨-1, conf, []⟩
  else
    match inetPton (String.ofList args) with
    | none => .ok ⟨0, conf, []⟩
    | some addr => .ok ⟨0, store addr conf, []⟩

/-- `set_bm_commtype`. -/
def setBmCommtype : List Char → Conf → Except Fault Called :=
  setNumber (fun type => 0 ≤ type ∧ type ≤ 2)
    (fun type conf => { conf with commType := type }) [] 0

/-- `set_bm_pmserverip`. -/
def setBmPmserverip : List Char → Conf → Except Fault Called :=
  setText Conf.serverIp fun array conf => { conf with serverIp := array }

/-- `set_bm_pmserverport`. -/
def setBmPmserverport : List Char → Conf → Except Fault Called :=
  setNumber (fun _ => true) (fun port conf => { conf with serverPort := port }) [] 0

/-- `set_bm_alcaaddress`. -/
def setBmAlcaaddress : List Char → Conf → Except Fault Called :=
  setText Conf.alcaIp fun array conf => { conf with alcaIp := array }

/-- `set_bm_alcaport`. -/
def setBmAlcaport : List Char → Conf → Except Fault Called :=
  setNumber (fun _ => true) (fun port conf => { conf with alcaPort := port }) [] 0

/-- `set_bm_logsrvaddress`. -/
def setBmLogsrvaddress : List Char → Conf → Except Fault Called :=
  setText Conf.logsrvIp fun array conf => { conf with logsrvIp := array }

/-- `set_bm_logsrvport`. -/
def setBmLogsrvport : List Char → Conf → Except Fault Called :=
  setNumber (fun _ => true) (fun port conf => { conf with logsrvPort := port }) [] 0

/-- `set_routerip`, which stores the address twice. -/
def setRouterip : List Char → Conf → Except Fault Called :=
  setAddress fun addr conf =>
    { conf with
      icConfig.routerIp := addr
      peaConfig.routerIp := addr }

/-- `set_localip`. -/
def setLocalip : List Char → Conf → Except Fault Called :=
  setAddress fun addr conf => { conf with icConfig.localIp := addr }

/-- `set_localmask`. -/
def setLocalmask : List Char → Conf → Except Fault Called :=
  setAddress fun addr conf => { conf with icConfig.netmask := addr }

/-- `set_outside`. -/
def setOutside : List Char → Conf → Except Fault Called :=
  setNumber (fun val => val = 0 ∨ val = 1)
    (fun val conf => { conf with icConfig.outside := val }) [] 0

/-- `set_ic_hello_h_timeval`. -/
def setIcHelloHTimeval : List Char → Conf → Except Fault Called :=
  setNumber (fun val => 0 < val ∧ val < 100)
    (fun val conf => { conf with icConfig.hHelloVal := val.toUInt32 }) [.icm] 0

/-- `set_ic_hello_l_timeval`. -/
def setIcHelloLTimeval : List Char → Conf → Except Fault Called :=
  setNumber (fun val => 0 < val ∧ val < 400)
    (fun val conf => { conf with icConfig.lHelloVal := val.toUInt32 }) [.icm] 0

/-- `set_ic_dead_h_timeval`. -/
def setIcDeadHTimeval : List Char → Conf → Except Fault Called :=
  setNumber (fun val => 0 < val ∧ val < 400)
    (fun val conf => { conf with icConfig.hDeadVal := val.toUInt32 }) [.icm] 0

/-- `set_ic_dead_l_timeval`. -/
def setIcDeadLTimeval : List Char → Conf → Except Fault Called :=
  setNumber (fun val => 0 < val ∧ val < 1600)
    (fun val conf => { conf with icConfig.lDeadVal := val.toUInt32 }) [.icm] 0

/-- `set_dbm_snapshoot_timeval`. -/
def setDbmSnapshootTimeval : List Char → Conf → Except Fault Called :=
  setNumber (fun val => 0 ≤ val ∧ val ≤ 60)
    (fun val conf => { conf with dbmConfig.snapshootTimeval := val }) [.dbm] 0

/-- `set_dbm_policytype`, which returns one when it has stored its value. -/
def setDbmPolicytype : List Char → Conf → Except Fault Called :=
  setNumber (fun val => 0 < val ∧ val ≤ 3)
    (fun val conf => { conf with dbmConfig.policyType := val }) [.dbm] 1

/-- `set_pea_ospf_hello`, which stores nothing. -/
def setPeaOspfHello : List Char → Conf → Except Fault Called :=
  setNumber (fun val => 0 < val ∧ val ≤ 255) (fun _ conf => conf) [] 1

/-- `set_pea_ospf_dead`, which stores nothing. -/
def setPeaOspfDead : List Char → Conf → Except Fault Called :=
  setNumber (fun val => 0 < val ∧ val ≤ 255) (fun _ conf => conf) [] 1

/-- A call through a pointer of type `value_setter`. -/
def ValueSetter.call : ValueSetter → List Char → Conf → Except Fault Called
  | .setBmCommtype => Vty.setBmCommtype
  | .setBmPmserverip => Vty.setBmPmserverip
  | .setBmPmserverport => Vty.setBmPmserverport
  | .setBmAlcaaddress => Vty.setBmAlcaaddress
  | .setBmAlcaport => Vty.setBmAlcaport
  | .setBmLogsrvaddress => Vty.setBmLogsrvaddress
  | .setBmLogsrvport => Vty.setBmLogsrvport
  | .setRouterip => Vty.setRouterip
  | .setLocalip => Vty.setLocalip
  | .setLocalmask => Vty.setLocalmask
  | .setOutside => Vty.setOutside
  | .setIcHelloHTimeval => Vty.setIcHelloHTimeval
  | .setIcHelloLTimeval => Vty.setIcHelloLTimeval
  | .setIcDeadHTimeval => Vty.setIcDeadHTimeval
  | .setIcDeadLTimeval => Vty.setIcDeadLTimeval
  | .setDbmSnapshootTimeval => Vty.setDbmSnapshootTimeval
  | .setDbmPolicytype => Vty.setDbmPolicytype
  | .setPeaOspfHello => Vty.setPeaOspfHello
  | .setPeaOspfDead => Vty.setPeaOspfDead

/-! ## The table -/

/-- An entry of `cmd_msg_list` with a command; the pointer to its setter may be null. -/
structure CMsg where
  cmd : String
  helpInfo : String
  funcPtr : Option ValueSetter
  deriving Repr, DecidableEq

/-- `SET_HELP_STR`. -/
def setHelpStr : String :=
  "set comm\n\tpmsip\n\tpmsport\n\talcaip\n\talcaport\n\tlogsrvip\n\tlogsrvport\n\thello_high\n" ++
    "\thello_low\n\tdead_high\n\tdead_low\n\trouterip\n\tlocalip\n\tlocalmask\n\toutside\n" ++
      "\tsnap\n\tpolicy\n\tospf_hello\n\tospf_dead\n"

/-- The initialisers of `cmd_msg_list`; the last one has a null command. -/
def cmdMsgInit : List (Option CMsg) :=
  [some ⟨"set", setHelpStr, none⟩,
    some ⟨"comm", "set comm ?(0:Alca Disable,1:Alca Enable,2:Both)\n", some .setBmCommtype⟩,
    some ⟨"pmsip", "set pmsip ?(x.x.x.x PMS server's ip address)\n", some .setBmPmserverip⟩,
    some ⟨"pmsport", "set pmsport ?(int, the number port)\n", some .setBmPmserverport⟩,
    some ⟨"alcaip", "set alcaip ?(x.x.x.x ALCA's ip address)\n", some .setBmAlcaaddress⟩,
    some ⟨"alcaport", "set alcaport ?(int, the number alca port)\n", some .setBmAlcaport⟩,
    some ⟨"logsrvip", "set logsrvip ?(x.x.x.x LOGSRV's ip address)\n", some .setBmLogsrvaddress⟩,
    some ⟨"logsrvport", "set logsrvport ?(int, the number LOGSRV port)\n", some .setBmLogsrvport⟩,
    some ⟨"routerip", "set routerip ?(x.x.x.x the router ip pma controlled)\n", some .setRouterip⟩,
    some ⟨"localip", "set localip ?(x.x.x.x the local ip of pma)\n", some .setLocalip⟩,
    some ⟨"localmask", "set localmask ?(x.x.x.x the local mask of pma)\n", some .setLocalmask⟩,
    some ⟨"outside", "set outside ?(int, 0 present false, 1 present true)\n", some .setOutside⟩,
    some ⟨"hello_high", "set hello_high ?(high timeval(x*100ms)[1-99])\n",
      some .setIcHelloHTimeval⟩,
    some ⟨"hello_low", "set hello_low ?(low timeval(x*100ms)[1-399])\n",
      some .setIcHelloLTimeval⟩,
    some ⟨"dead_high", "set dead_high ? ?(high timeval(x*100ms)[1-399])\n",
      some .setIcDeadHTimeval⟩,
    some ⟨"dead_low", "set dead_low ? ?(high timeval(x*100ms)[1-1599])\n",
      some .setIcDeadLTimeval⟩,
    some ⟨"snap", "set snap ?(snapshoot send timeval (second))\n", some .setDbmSnapshootTimeval⟩,
    some ⟨"policy", "set policy ?(not used yet)\n", some .setDbmPolicytype⟩,
    some ⟨"ospf_hello", "set ospf_hello ?(hello,second)\n", some .setPeaOspfHello⟩,
    some ⟨"ospf_dead", "set ospf_dead ?(dead,second)\n", some .setPeaOspfDead⟩,
    none]

/-- `cmd_msg_list`, an array of twenty entries: an initialiser too many is not in it. -/
def cmdMsgList : List (Option CMsg) :=
  cmdMsgInit.take 20

/-- The loop of `handle_cmd_word`: the entry whose command starts the word. -/
def findCmd (word : List Char) : List (Option CMsg) → Except Fault (Option CMsg)
  | [] => .error .outsideTable
  | none :: _ => .ok none
  | some entry :: rest =>
      -- `strncmp` for the length of the command
      if entry.cmd.toList <+: word then
        .ok (some entry)
      else
        findCmd word rest

/-- What a set command returns, sends to the console and leaves. -/
structure Handled where
  ret : Int32
  message : String
  conf : Conf
  told : List Module
  deriving DecidableEq

/-- `set_value_by_type` for an entry of the table. -/
def setValueByType (entry : CMsg) (value : List Char) (conf : Conf) : Except Fault Handled :=
  match entry.funcPtr with
  | none => .error .nullCall
  | some setter =>
      match setter.call value conf with
      | .error fault => .error fault
      | .ok called =>
          if called.ret = 0 then
            .ok ⟨0, "Set Successfully!\n", called.conf, called.told⟩
          else
            .ok ⟨0, "The value not right!\n", called.conf, called.told⟩

/-- `handle_cmd_word`; `strtok` finds no value or one. -/
def handleCmdWord (word : CString) (val : Option CString) (conf : Conf) :
    Except Fault Handled :=
  match findCmd word.chars cmdMsgList with
  | .error fault => .error fault
  | .ok none => .ok ⟨-2, setHelpStr, conf, []⟩
  | .ok (some entry) =>
      match val with
      | none => .ok ⟨-1, entry.helpInfo, conf, []⟩
      | some value =>
          if value.chars.head? = some '?' then
            .ok ⟨-1, entry.helpInfo, conf, []⟩
          else
            setValueByType entry value.chars conf

/-! ## What is asked of a set command -/

/-- A value that a setting can be given. -/
inductive Value where
  | number (value : Int)
  | text (chars : List Char)
  | address (addr : UInt32)
  deriving Repr, DecidableEq

/-- What a setting is kept in. -/
inductive Stored where
  | number (value : Int)
  | array (chars : List Char)
  | addresses (addrs : List UInt32)
  | nothing
  deriving Repr, DecidableEq

/-- The string at the start of an array, which has to end in it. -/
def cString (chars : List Char) : Option (List Char) :=
  if '\x00' ∈ chars then some (chars.takeWhile fun char => char ≠ '\x00') else none

/-- A value as it is read from where it is kept. -/
def Stored.Holds : Stored → Value → Prop
  | .number stored, .number value => stored = value
  | .array chars, .text value => cString chars = some value
  | .addresses addrs, .address value => ∀ addr ∈ addrs, addr = value
  | _, _ => False

/-- The setting of a setter. -/
def ValueSetter.stored (conf : Conf) : ValueSetter → Stored
  | .setBmCommtype => .number conf.commType.toInt
  | .setBmPmserverip => .array conf.serverIp.toList
  | .setBmPmserverport => .number conf.serverPort.toInt
  | .setBmAlcaaddress => .array conf.alcaIp.toList
  | .setBmAlcaport => .number conf.alcaPort.toInt
  | .setBmLogsrvaddress => .array conf.logsrvIp.toList
  | .setBmLogsrvport => .number conf.logsrvPort.toInt
  | .setRouterip => .addresses [conf.icConfig.routerIp, conf.peaConfig.routerIp]
  | .setLocalip => .addresses [conf.icConfig.localIp]
  | .setLocalmask => .addresses [conf.icConfig.netmask]
  | .setOutside => .number conf.icConfig.outside.toInt
  | .setIcHelloHTimeval => .number conf.icConfig.hHelloVal.toNat
  | .setIcHelloLTimeval => .number conf.icConfig.lHelloVal.toNat
  | .setIcDeadHTimeval => .number conf.icConfig.hDeadVal.toNat
  | .setIcDeadLTimeval => .number conf.icConfig.lDeadVal.toNat
  | .setDbmSnapshootTimeval => .number conf.dbmConfig.snapshootTimeval.toInt
  | .setDbmPolicytype => .number conf.dbmConfig.policyType.toInt
  | .setPeaOspfHello => .nothing
  | .setPeaOspfDead => .nothing

/-- A text without the line end behind it. -/
def typed (text : List Char) : List Char :=
  if text.getLast? = some '\n' then text.dropLast else text

/-- The value that a text gives to the setting of a setter. -/
def ValueSetter.given (text : List Char) : ValueSetter → Option Value
  | .setBmPmserverip
  | .setBmAlcaaddress
  | .setBmLogsrvaddress => some (.text (typed text))
  | .setRouterip
  | .setLocalip
  | .setLocalmask => (inetPton (String.ofList (typed text))).map Value.address
  | _ => some (.number (atoi (String.ofList text)).toInt)

/-- The entries of the table. -/
def commands : List CMsg :=
  cmdMsgList.filterMap id

/-- The word starts with the command of a setter. -/
def Matched (word : CString) (setter : ValueSetter) : Prop :=
  ∃ entry ∈ commands, entry.cmd.toList <+: word.chars ∧ entry.funcPtr = some setter

/-- A setting has the value that was given, and every other setting is as it was. -/
def Changes (conf next : Conf) (setter : ValueSetter) (text : List Char) : Prop :=
  (∃ value, setter.given text = some value ∧ (setter.stored next).Holds value) ∧
    ∀ other ≠ setter, other.stored next = other.stored conf

/--
The command ends without a fault.  A value that is accepted is the one the
setting has then, and without one nothing is changed.
-/
def SetsRight (word : CString) (val : Option CString) (conf : Conf) : Prop :=
  ∃ handled,
    handleCmdWord word val conf = .ok handled ∧
      if handled.message = "Set Successfully!\n" then
        ∃ value setter,
          val = some value ∧ Matched word setter ∧ Changes conf handled.conf setter value.chars
      else
        handled.conf = conf

/-- What is in the array behind the place of the last character already is the rest of the text. -/
def TextSuits (array : Vector Char 46) (text : List Char) : Prop :=
  lineLength text = 0 ∨
    0 < lineLength text ∧
      cString (array.toList.drop (lineLength text).toInt.toNat) =
        some ((typed text).drop (lineLength text).toInt.toNat)

/-- The text is an address, without a line end or the one that is set already. -/
def AddressSuits (addrs : List UInt32) (text : List Char) : Prop :=
  lineLength text = 0 ∨
    ∃ value,
      inetPton (String.ofList (typed text)) = some value ∧
        (inetPton (String.ofList text) = some value ∨ ∀ addr ∈ addrs, addr = value)

/-- The texts that a setter handles as it should. -/
def ValueSetter.Suits (text : List Char) (conf : Conf) : ValueSetter → Prop
  | .setBmPmserverip => TextSuits conf.serverIp text
  | .setBmAlcaaddress => TextSuits conf.alcaIp text
  | .setBmLogsrvaddress => TextSuits conf.logsrvIp text
  | .setRouterip => AddressSuits [conf.icConfig.routerIp, conf.peaConfig.routerIp] text
  | .setLocalip => AddressSuits [conf.icConfig.localIp] text
  | .setLocalmask => AddressSuits [conf.icConfig.netmask] text
  | .setDbmPolicytype =>
      0 < atoi (String.ofList text) → atoi (String.ofList text) ≤ 3 →
        conf.dbmConfig.policyType = atoi (String.ofList text)
  | _ => True

/-- The word starts with a command, which has a setter that the value suits or no value to set. -/
def Suits (word : CString) (val : Option CString) (conf : Conf) : Prop :=
  ∃ entry ∈ commands,
    entry.cmd.toList <+: word.chars ∧
      ∀ value, val = some value → value.chars.head? ≠ some '?' →
        ∃ setter, entry.funcPtr = some setter ∧ setter.Suits value.chars conf

/-! ## The table -/

/-- Every entry of the table has a command. -/
theorem cmdMsgList_eq :
    cmdMsgList = commands.map some :=
  rfl

/-- Without a command that starts the word the loop leaves the table. -/
theorem findCmd_map_some
    (word : List Char)
    (entries : List CMsg) :
    findCmd word (entries.map some) =
      match entries.find? fun entry => entry.cmd.toList <+: word with
      | none => .error .outsideTable
      | some entry => .ok (some entry) := by
  induction entries with
  | nil =>
      rfl
  | cons entry rest inductionHypothesis =>
      rw [List.map_cons]
      unfold findCmd
      by_cases starts : entry.cmd.toList <+: word
      · rw [if_pos starts, List.find?_cons_of_pos (by simpa using starts)]
      · rw [if_neg starts, List.find?_cons_of_neg (by simpa using starts)]
        exact inductionHypothesis

/-- Neither of two commands starts the other one. -/
def Apart (first second : CMsg) : Prop :=
  ¬first.cmd.toList <+: second.cmd.toList ∧ ¬second.cmd.toList <+: first.cmd.toList

instance : Std.Symm Apart where
  symm _ _ apart := apart.symm

theorem pairwise_commands : commands.Pairwise Apart := by
  unfold Apart
  decide

/-- No command starts another one. -/
theorem eq_of_command_starts
    {first second : CMsg}
    (firstMember : first ∈ commands)
    (secondMember : second ∈ commands)
    (starts : first.cmd.toList <+: second.cmd.toList) :
    first = second := by
  by_contra different
  have apart := pairwise_commands.forall firstMember secondMember different
  exact apart.1 starts

/-- At most one command starts a word. -/
theorem eq_of_starts
    {word : List Char}
    {first second : CMsg}
    (firstMember : first ∈ commands)
    (secondMember : second ∈ commands)
    (firstStarts : first.cmd.toList <+: word)
    (secondStarts : second.cmd.toList <+: word) :
    first = second := by
  rcases List.prefix_or_prefix_of_prefix firstStarts secondStarts with before | behind
  · exact eq_of_command_starts firstMember secondMember before
  · exact (eq_of_command_starts secondMember firstMember behind).symm

/-- The loop finds the entry whose command starts the word. -/
theorem findCmd_of_starts
    {word : List Char}
    {entry : CMsg}
    (member : entry ∈ commands)
    (starts : entry.cmd.toList <+: word) :
    findCmd word cmdMsgList = .ok (some entry) := by
  rw [cmdMsgList_eq, findCmd_map_some]
  cases found : commands.find? fun entry => entry.cmd.toList <+: word with
  | none =>
      have nowhere := List.find?_eq_none.mp found entry member
      exact absurd starts (by simpa using nowhere)
  | some other =>
      have otherStarts : other.cmd.toList <+: word := by
        simpa using List.find?_some found
      have same : other = entry :=
        eq_of_starts (List.mem_of_find?_eq_some found) member otherStarts starts
      rw [same]

/-- Another word is looked for behind the end of the table. -/
theorem findCmd_unknown
    {word : List Char}
    (unknown : ∀ entry ∈ commands, ¬entry.cmd.toList <+: word) :
    findCmd word cmdMsgList = .error .outsideTable := by
  have nowhere : commands.find? (fun entry => entry.cmd.toList <+: word) = none := by
    rw [List.find?_eq_none]
    intro entry member
    simpa using unknown entry member
  rw [cmdMsgList_eq, findCmd_map_some, nowhere]

theorem matched_iff
    {word : CString}
    {entry : CMsg}
    (member : entry ∈ commands)
    (starts : entry.cmd.toList <+: word.chars)
    (setter : ValueSetter) :
    Matched word setter ↔ entry.funcPtr = some setter := by
  constructor
  · rintro ⟨other, otherMember, otherStarts, isSetter⟩
    rw [eq_of_starts member otherMember starts otherStarts]
    exact isSetter
  · intro isSetter
    exact ⟨entry, member, starts, isSetter⟩

/-- No help text is the answer to a value that was accepted. -/
theorem helpInfo_ne
    {entry : CMsg}
    (member : entry ∈ commands) :
    entry.helpInfo ≠ "Set Successfully!\n" := by
  have each : ∀ entry ∈ commands, entry.helpInfo ≠ "Set Successfully!\n" := by
    decide
  exact each entry member

/-! ## The setters -/

/-- What is asked of the call of a setter. -/
def CallRight (setter : ValueSetter) (text : List Char) (conf : Conf) : Prop :=
  ∃ called,
    setter.call text conf = .ok called ∧
      if called.ret = 0 then Changes conf called.conf setter text else called.conf = conf

section
variable {setter : ValueSetter} {text : List Char} {conf : Conf}

theorem conf_of_setNumber
    {inRange : Int32 → Bool}
    {store : Int32 → Conf → Conf}
    {told : List Module}
    {ret : Int32}
    {called : Called}
    (call : setNumber inRange store told ret text conf = .ok called) :
    called.conf = conf ∨ ∃ val, called.conf = store val conf := by
  by_cases inside : inRange (atoi (String.ofList text))
  · have result := (if_pos inside).symm.trans call
    cases result
    exact Or.inr ⟨_, rfl⟩
  · have result := (if_neg inside).symm.trans call
    cases result
    exact Or.inl rfl

theorem conf_of_setText
    {field : Conf → Vector Char 46}
    {store : Vector Char 46 → Conf → Conf}
    {called : Called}
    (call : setText field store text conf = .ok called) :
    called.conf = conf ∨ ∃ array, called.conf = store array conf := by
  by_cases empty : lineLength text = 0
  · have result := (if_pos empty).symm.trans call
    cases result
    exact Or.inl rfl
  · have result := (if_neg empty).symm.trans call
    cases copies : strncpy (field conf) text (lineLength text) with
    | none =>
        rw [copies] at result
        cases result
    | some array =>
        rw [copies] at result
        cases result
        exact Or.inr ⟨array, rfl⟩

theorem conf_of_setAddress
    {store : UInt32 → Conf → Conf}
    {called : Called}
    (call : setAddress store text conf = .ok called) :
    called.conf = conf ∨ ∃ addr, called.conf = store addr conf := by
  by_cases empty : lineLength text = 0
  · have result := (if_pos empty).symm.trans call
    cases result
    exact Or.inl rfl
  · have result := (if_neg empty).symm.trans call
    cases reads : inetPton (String.ofList text) with
    | none =>
        rw [reads] at result
        cases result
        exact Or.inl rfl
    | some addr =>
        rw [reads] at result
        cases result
        exact Or.inr ⟨addr, rfl⟩

/-- A setter leaves the settings of all others. -/
theorem stored_of_call
    {called : Called}
    (call : setter.call text conf = .ok called)
    {other : ValueSetter}
    (different : other ≠ setter) :
    other.stored called.conf = other.stored conf := by
  unfold ValueSetter.call at call
  cases setter with
  | setBmPmserverip | setBmAlcaaddress | setBmLogsrvaddress =>
      rcases conf_of_setText call with same | ⟨array, next⟩
      · rw [same]
      · rw [next]
        cases other <;> first | rfl | exact absurd rfl different
  | setRouterip | setLocalip | setLocalmask =>
      rcases conf_of_setAddress call with same | ⟨addr, next⟩
      · rw [same]
      · rw [next]
        cases other <;> first | rfl | exact absurd rfl different
  | setPeaOspfHello | setPeaOspfDead =>
      rcases conf_of_setNumber call with same | ⟨val, next⟩
      · rw [same]
      · rw [next]
  | _ =>
      rcases conf_of_setNumber call with same | ⟨val, next⟩
      · rw [same]
      · rw [next]
        cases other <;> first | rfl | exact absurd rfl different

/-- A call with this result is right if and only if the result is. -/
theorem callRight_iff
    {called : Called}
    (call : setter.call text conf = .ok called) :
    CallRight setter text conf ↔
      if called.ret = 0 then Changes conf called.conf setter text else called.conf = conf := by
  constructor
  · rintro ⟨other, otherCall, right⟩
    rw [call] at otherCall
    cases otherCall
    exact right
  · intro right
    exact ⟨called, call, right⟩

theorem not_callRight
    {fault : Fault}
    (call : setter.call text conf = .error fault) :
    ¬CallRight setter text conf := by
  rintro ⟨called, result, _⟩
  rw [call] at result
  cases result

/-- A setter that returns minus one and leaves everything is right. -/
theorem callRight_rejected
    {told : List Module}
    (call : setter.call text conf = .ok ⟨-1, conf, told⟩) :
    CallRight setter text conf := by
  rw [callRight_iff call, if_neg (show ¬(-1 : Int32) = 0 by decide)]

/-- A setter of a number is right when it stores where its setting is read. -/
theorem callRight_number
    {inRange : Int32 → Bool}
    {store : Int32 → Conf → Conf}
    {told : List Module}
    (isCall : setter.call = setNumber inRange store told 0)
    (isGiven : setter.given text = some (.number (atoi (String.ofList text)).toInt))
    (stores :
      ∀ val conf, inRange val → setter.stored (store val conf) = .number val.toInt) :
    CallRight setter text conf := by
  by_cases inside : inRange (atoi (String.ofList text))
  · have call : setter.call text conf =
        .ok ⟨0, store (atoi (String.ofList text)) conf, told⟩ := by
      rw [isCall]
      exact if_pos inside
    rw [callRight_iff call, if_pos rfl]
    refine ⟨⟨_, isGiven, ?_⟩, fun other => stored_of_call call⟩
    rw [stores _ conf inside]
    rfl
  · apply callRight_rejected
    rw [isCall]
    exact if_neg inside

/-- A setter that stores nothing and returns something else than zero is right. -/
theorem callRight_unstored
    {inRange : Int32 → Bool}
    (isCall : setter.call = setNumber inRange (fun _ conf => conf) [] 1) :
    CallRight setter text conf := by
  by_cases inside : inRange (atoi (String.ofList text))
  · have call : setter.call text conf = .ok ⟨1, conf, []⟩ := by
      rw [isCall]
      exact if_pos inside
    rw [callRight_iff call, if_neg (show ¬(1 : Int32) = 0 by decide)]
  · apply callRight_rejected
    rw [isCall]
    exact if_neg inside

/-- Of a text whose length is an `int`, at most all but the last character is copied. -/
theorem lineLength_lt
    (positive : 0 < lineLength text) :
    (lineLength text).toInt.toNat < text.length := by
  have above : 0 < (lineLength text).toInt := Int32.lt_iff_toInt_lt.mp positive
  unfold lineLength at above ⊢
  rw [Int32.toInt_ofInt] at above ⊢
  cases text with
  | nil =>
      exact absurd above (by decide)
  | cons char rest =>
      have below : (rest.length : Int).bmod Int32.size ≤ rest.length := by
        have whole : ((rest.length % Int32.size : Nat) : Int) ≤ rest.length :=
          Int.ofNat_le.mpr (Nat.mod_le _ _)
        simp only [Int.bmod, ← Int.natCast_mod]
        split
        · exact whole
        · omega
      simp only [List.length_cons, Nat.cast_add, Nat.cast_one, add_sub_cancel_right] at above ⊢
      omega

/-- What is copied of a text is in front of what was in the array. -/
theorem strncpy_eq_some
    {size : Nat}
    (array : Vector Char size)
    {count : Int32}
    (positive : 0 ≤ count.toInt)
    (fits : count.toInt.toNat ≤ size)
    (shorter : count.toInt.toNat ≤ text.length) :
    ∃ filled,
      strncpy array text count = some filled ∧
        filled.toList =
          text.take count.toInt.toNat ++ array.toList.drop count.toInt.toNat := by
  have length : (text.take count.toInt.toNat).length = count.toInt.toNat := by
    rw [List.length_take, Nat.min_eq_left shorter]
  have room : 0 + (text.take count.toInt.toNat).length ≤ size := by omega
  obtain ⟨filled, writes, contents⟩ := ArrayWrite.writeAll_fits array room
  refine ⟨filled, ?_, ?_⟩
  · unfold strncpy
    rw [if_pos ⟨positive, fits⟩, Nat.sub_eq_zero_of_le shorter, List.replicate_zero,
      List.append_nil]
    exact writes
  · rw [contents, length, Nat.zero_add, List.take_zero, List.nil_append]

/-- A string that starts with characters other than zero. -/
theorem cString_append
    {first : List Char}
    (noNul : '\x00' ∉ first)
    (rest : List Char) :
    cString (first ++ rest) = (cString rest).map fun chars => first ++ chars := by
  have others : ∀ char ∈ first, decide (char ≠ '\x00') = true := by
    intro char member
    exact decide_eq_true fun isNul => noNul (isNul ▸ member)
  unfold cString
  rw [List.takeWhile_append_of_pos others]
  by_cases ends : '\x00' ∈ rest
  · rw [if_pos ends, if_pos (List.mem_append_right first ends)]
    rfl
  · rw [if_neg ends, if_neg fun member => (List.mem_append.mp member).elim noNul ends]
    rfl

/-- The characters that are copied are characters that were typed. -/
theorem take_typed
    {count : Nat}
    (shorter : count < text.length) :
    (typed text).take count = text.take count := by
  unfold typed
  split
  · rw [List.dropLast_eq_take, List.take_take, Nat.min_eq_left (by omega)]
  · rfl

/-- After a copy the array holds what was typed if it held the rest of it before. -/
theorem cString_copied
    {array filled : Vector Char 46}
    {count : Nat}
    (noNul : '\x00' ∉ text)
    (shorter : count < text.length)
    (contents : filled.toList = text.take count ++ array.toList.drop count) :
    cString filled.toList = some (typed text) ↔
      cString (array.toList.drop count) = some ((typed text).drop count) := by
  rw [contents, cString_append fun member => noNul (List.mem_of_mem_take member)]
  have whole := List.take_append_drop count (typed text)
  rw [take_typed shorter] at whole
  constructor
  · intro same
    obtain ⟨rest, isRest, together⟩ := Option.map_eq_some_iff.mp same
    rw [isRest, List.append_cancel_left (together.trans whole.symm)]
  · intro isRest
    rw [isRest, Option.map_some, whole]

/-- A copy of another length than those of the array leaves it. -/
theorem strncpy_eq_none
    {size : Nat}
    (array : Vector Char size)
    (nonempty : ¬lineLength text = 0)
    (outside : ¬(0 < lineLength text ∧ (lineLength text).toInt.toNat ≤ size)) :
    strncpy array text (lineLength text) = none := by
  unfold strncpy
  apply if_neg
  rintro ⟨above, inside⟩
  apply outside
  have nonzero : (lineLength text).toInt ≠ 0 := by
    intro zero
    exact nonempty (Int32.toInt_inj.mp zero)
  exact ⟨Int32.lt_iff_toInt_lt.mpr (lt_of_le_of_ne above nonzero.symm), inside⟩

/-- A setter of a text is right when the rest of the text is in the array already. -/
theorem callRight_text
    {field : Conf → Vector Char 46}
    {store : Vector Char 46 → Conf → Conf}
    (noNul : '\x00' ∉ text)
    (isCall : setter.call = setText field store)
    (isGiven : setter.given text = some (.text (typed text)))
    (stores : ∀ array conf, setter.stored (store array conf) = .array array.toList) :
    CallRight setter text conf ↔ TextSuits (field conf) text := by
  by_cases empty : lineLength text = 0
  · have call : setter.call text conf = .ok ⟨-1, conf, []⟩ := by
      rw [isCall]
      exact if_pos empty
    exact iff_of_true (callRight_rejected call) (Or.inl empty)
  · have unfolded : setter.call text conf =
        match strncpy (field conf) text (lineLength text) with
        | none => .error .outsideArray
        | some array => .ok ⟨0, store array conf, []⟩ := by
      rw [isCall]
      exact if_neg empty
    by_cases fits : 0 < lineLength text ∧ (lineLength text).toInt.toNat ≤ 46
    · obtain ⟨positive, inside⟩ := fits
      have shorter := lineLength_lt positive
      have above : 0 ≤ (lineLength text).toInt := Int.le_of_lt (Int32.lt_iff_toInt_lt.mp positive)
      obtain ⟨filled, copies, contents⟩ :=
        strncpy_eq_some (field conf) above inside (Nat.le_of_lt shorter)
      rw [copies] at unfolded
      have reads := cString_copied noNul shorter contents
      rw [callRight_iff unfolded, if_pos rfl]
      constructor
      · rintro ⟨⟨value, given, holds⟩, _⟩
        rw [isGiven] at given
        cases given
        rw [stores] at holds
        exact Or.inr ⟨positive, reads.mp holds⟩
      · rintro (isEmpty | ⟨_, rest⟩)
        · exact absurd isEmpty empty
        · refine ⟨⟨_, isGiven, ?_⟩, fun other => stored_of_call unfolded⟩
          rw [stores]
          exact reads.mpr rest
    · have fails := strncpy_eq_none (field conf) empty fits
      rw [fails] at unfolded
      apply iff_of_false (not_callRight unfolded)
      rintro (isEmpty | ⟨positive, rest⟩)
      · exact empty isEmpty
      · have behind : 46 < (lineLength text).toInt.toNat := by
          apply Nat.lt_of_not_le
          intro inside
          exact fits ⟨positive, inside⟩
        have length : (field conf).toList.length = 46 := Vector.length_toList
        rw [List.drop_eq_nil_of_le (by omega)] at rest
        cases rest

/-- A text with a line end behind it is no address. -/
theorem typed_of_inetPton
    {addr : UInt32}
    (reads : inetPton (String.ofList text) = some addr) :
    typed text = text := by
  unfold typed
  apply if_neg
  intro ends
  have member : '\n' ∈ (String.ofList text).toList := by
    rw [String.toList_ofList]
    exact List.mem_of_getLast? ends
  rcases isDigit_of_inetPton reads '\n' member with dot | digit
  · exact absurd dot (by decide)
  · exact absurd digit (by decide)

/-- A setter of an address is right when the address is read or is set already. -/
theorem callRight_address
    {store : UInt32 → Conf → Conf}
    {addrs : Conf → List UInt32}
    (isCall : setter.call = setAddress store)
    (isGiven :
      setter.given text = (inetPton (String.ofList (typed text))).map Value.address)
    (isStored : ∀ conf, setter.stored conf = .addresses (addrs conf))
    (stores : ∀ value conf, ∀ addr ∈ addrs (store value conf), addr = value) :
    CallRight setter text conf ↔ AddressSuits (addrs conf) text := by
  by_cases empty : lineLength text = 0
  · have call : setter.call text conf = .ok ⟨-1, conf, []⟩ := by
      rw [isCall]
      exact if_pos empty
    exact iff_of_true (callRight_rejected call) (Or.inl empty)
  · have unfolded : setter.call text conf =
        match inetPton (String.ofList text) with
        | none => .ok ⟨0, conf, []⟩
        | some addr => .ok ⟨0, store addr conf, []⟩ := by
      rw [isCall]
      exact if_neg empty
    cases reads : inetPton (String.ofList text) with
    | none =>
        rw [reads] at unfolded
        rw [callRight_iff unfolded, if_pos rfl]
        constructor
        · rintro ⟨⟨value, given, holds⟩, _⟩
          rw [isGiven] at given
          obtain ⟨addr, isAddr, rfl⟩ := Option.map_eq_some_iff.mp given
          rw [isStored] at holds
          exact Or.inr ⟨addr, isAddr, Or.inr holds⟩
        · rintro (isEmpty | ⟨addr, isAddr, read | already⟩)
          · exact absurd isEmpty empty
          · rw [reads] at read
            cases read
          · refine ⟨⟨.address addr, ?_, ?_⟩, fun other _ => rfl⟩
            · rw [isGiven, isAddr]
              rfl
            · rw [isStored]
              exact already
    | some addr =>
        rw [reads] at unfolded
        have isAddr : inetPton (String.ofList (typed text)) = some addr := by
          rw [typed_of_inetPton reads]
          exact reads
        have suits : AddressSuits (addrs conf) text := Or.inr ⟨addr, isAddr, Or.inl reads⟩
        rw [callRight_iff unfolded, if_pos rfl]
        refine iff_of_true ⟨⟨.address addr, ?_, ?_⟩, fun other => stored_of_call unfolded⟩ suits
        · rw [isGiven, isAddr]
          rfl
        · rw [isStored]
          exact stores addr conf

end

/-- An unsigned field keeps a number that is not negative. -/
theorem toNat_toUInt32
    {val : Int32}
    (positive : 0 < val) :
    (val.toUInt32.toNat : Int) = val.toInt := by
  have above : 0 < val.toInt := Int32.lt_iff_toInt_lt.mp positive
  have cases_ := BitVec.toInt_eq_toNat_cond val.toBitVec
  change (val.toBitVec.toNat : Int) = val.toBitVec.toInt
  change 0 < val.toBitVec.toInt at above
  have bounded := val.toBitVec.isLt
  split at cases_ <;> omega

/-- The policy type is stored by a call that does not accept it. -/
theorem callRight_policytype
    (text : List Char)
    (conf : Conf) :
    CallRight .setDbmPolicytype text conf ↔
      ValueSetter.setDbmPolicytype.Suits text conf := by
  by_cases inside : 0 < atoi (String.ofList text) ∧ atoi (String.ofList text) ≤ 3
  · have call : ValueSetter.setDbmPolicytype.call text conf =
        .ok ⟨1, { conf with dbmConfig.policyType := atoi (String.ofList text) }, [.dbm]⟩ :=
      if_pos (decide_eq_true inside)
    rw [callRight_iff call, if_neg (show ¬(1 : Int32) = 0 by decide)]
    constructor
    · intro same _ _
      exact (congrArg (fun conf => conf.dbmConfig.policyType) same).symm
    · intro suits
      change { conf with dbmConfig.policyType := atoi (String.ofList text) } = conf
      rw [← suits inside.1 inside.2]
  · have call : ValueSetter.setDbmPolicytype.call text conf = .ok ⟨-1, conf, []⟩ :=
      if_neg fun isInside => inside (of_decide_eq_true isInside)
    exact iff_of_true (callRight_rejected call) fun above below => absurd ⟨above, below⟩ inside

/-- The call of a setter is right if and only if the text suits it. -/
theorem callRight_iff_suits
    (setter : ValueSetter)
    {text : List Char}
    (noNul : '\x00' ∉ text)
    (conf : Conf) :
    CallRight setter text conf ↔ setter.Suits text conf := by
  cases setter with
  | setBmPmserverip | setBmAlcaaddress | setBmLogsrvaddress =>
      apply callRight_text noNul rfl rfl
      intro array conf
      rfl
  | setRouterip | setLocalip | setLocalmask =>
      apply callRight_address rfl rfl
      · intro conf
        rfl
      · intro value conf addr member
        simpa using member
  | setIcHelloHTimeval | setIcHelloLTimeval | setIcDeadHTimeval | setIcDeadLTimeval =>
      apply iff_of_true _ trivial
      apply callRight_number
      · unfold ValueSetter.call
        rfl
      · rfl
      · intro val conf inside
        exact congrArg Stored.number (toNat_toUInt32 (of_decide_eq_true inside).1)
  | setDbmPolicytype =>
      exact callRight_policytype text conf
  | setPeaOspfHello | setPeaOspfDead =>
      apply iff_of_true _ trivial
      apply callRight_unstored
      unfold ValueSetter.call
      rfl
  | _ =>
      apply iff_of_true _ trivial
      apply callRight_number
      · unfold ValueSetter.call
        rfl
      · rfl
      · intro val conf inside
        rfl

/-! ## The command -/

section
variable {word : CString} {entry : CMsg}

/-- A command that ends in a fault does not do what it should. -/
theorem not_setsRight
    {val : Option CString}
    {conf : Conf}
    {fault : Fault}
    (handles : handleCmdWord word val conf = .error fault) :
    ¬SetsRight word val conf := by
  rintro ⟨handled, result, _⟩
  rw [handles] at result
  cases result

/-- The answer to a value that is set is right if and only if the call of the setter is. -/
theorem setsRight_setter
    {value : CString}
    {setter : ValueSetter}
    {conf : Conf}
    (member : entry ∈ commands)
    (starts : entry.cmd.toList <+: word.chars)
    (notHelp : value.chars.head? ≠ some '?')
    (isSetter : entry.funcPtr = some setter) :
    SetsRight word (some value) conf ↔ CallRight setter value.chars conf := by
  have handles : handleCmdWord word (some value) conf = setValueByType entry value.chars conf := by
    unfold handleCmdWord
    rw [findCmd_of_starts member starts]
    exact if_neg notHelp
  unfold setValueByType at handles
  simp only [isSetter] at handles
  unfold SetsRight
  cases call : setter.call value.chars conf with
  | error fault =>
      rw [call] at handles
      exact iff_of_false (not_setsRight handles) (not_callRight call)
  | ok called =>
      rw [callRight_iff call]
      rw [call] at handles
      by_cases accepted : called.ret = 0
      · simp only [if_pos accepted] at handles ⊢
        rw [handles]
        constructor
        · rintro ⟨handled, result, right⟩
          cases result
          rw [if_pos rfl] at right
          obtain ⟨_, other, isValue, matched, changes⟩ := right
          cases isValue
          rw [matched_iff member starts, isSetter] at matched
          cases matched
          exact changes
        · intro changes
          refine ⟨_, rfl, ?_⟩
          rw [if_pos rfl]
          exact ⟨value, setter, rfl, (matched_iff member starts setter).mpr isSetter, changes⟩
      · simp only [if_neg accepted] at handles ⊢
        rw [handles]
        have notSet : ¬"The value not right!\n" = "Set Successfully!\n" := by decide
        constructor
        · rintro ⟨handled, result, right⟩
          cases result
          rw [if_neg notSet] at right
          exact right
        · intro same
          refine ⟨_, rfl, ?_⟩
          rw [if_neg notSet]
          exact same

theorem suits_iff
    {val : Option CString}
    {conf : Conf}
    (member : entry ∈ commands)
    (starts : entry.cmd.toList <+: word.chars) :
    Suits word val conf ↔
      ∀ value, val = some value → value.chars.head? ≠ some '?' →
        ∃ setter, entry.funcPtr = some setter ∧ setter.Suits value.chars conf := by
  constructor
  · rintro ⟨other, otherMember, otherStarts, right⟩
    rw [eq_of_starts member otherMember starts otherStarts]
    exact right
  · intro right
    exact ⟨entry, member, starts, right⟩

/-- The help text of a command is shown and nothing changed. -/
theorem setsRight_help
    {val : Option CString}
    {conf : Conf}
    (member : entry ∈ commands)
    (handles : handleCmdWord word val conf = .ok ⟨-1, entry.helpInfo, conf, []⟩) :
    SetsRight word val conf := by
  refine ⟨_, handles, ?_⟩
  rw [if_neg (helpInfo_ne member)]

end

/--
A set command does what it should if and only if its word starts with a command
and the value suits the setter of the command or is no value to set.
-/
theorem setsRight_iff
    (word : CString)
    (val : Option CString)
    (conf : Conf) :
    SetsRight word val conf ↔ Suits word val conf := by
  by_cases known : ∃ entry ∈ commands, entry.cmd.toList <+: word.chars
  · obtain ⟨entry, member, starts⟩ := known
    have found := findCmd_of_starts member starts
    rw [suits_iff member starts]
    cases val with
    | none =>
        have handles : handleCmdWord word none conf = .ok ⟨-1, entry.helpInfo, conf, []⟩ := by
          unfold handleCmdWord
          rw [found]
        apply iff_of_true (setsRight_help member handles)
        intro value isValue
        cases isValue
    | some value =>
        by_cases help : value.chars.head? = some '?'
        · have handles :
              handleCmdWord word (some value) conf = .ok ⟨-1, entry.helpInfo, conf, []⟩ := by
            unfold handleCmdWord
            rw [found]
            exact if_pos help
          apply iff_of_true (setsRight_help member handles)
          intro other isOther notHelp
          cases isOther
          exact absurd help notHelp
        · cases isSetter : entry.funcPtr with
          | none =>
              have handles : handleCmdWord word (some value) conf = .error .nullCall := by
                unfold handleCmdWord setValueByType
                rw [found]
                simp only [isSetter]
                exact if_neg help
              apply iff_of_false (not_setsRight handles)
              intro right
              obtain ⟨setter, isNone, _⟩ := right value rfl help
              cases isNone
          | some setter =>
              rw [setsRight_setter member starts help isSetter,
                callRight_iff_suits setter value.noNul conf]
              constructor
              · intro right other isOther _
                cases isOther
                exact ⟨setter, rfl, right⟩
              · intro right
                obtain ⟨other, isOther, suits⟩ := right value rfl help
                cases isOther
                exact suits
  · have handles : handleCmdWord word val conf = .error .outsideTable := by
      unfold handleCmdWord
      rw [findCmd_unknown fun entry member starts => known ⟨entry, member, starts⟩]
    apply iff_of_false (not_setsRight handles)
    rintro ⟨entry, member, starts, _⟩
    exact known ⟨entry, member, starts⟩

/-- After a longer address a shorter one keeps the rest of it. -/
def keptRest : Vector Char 46 :=
  Vector.ofFn fun place => "10.0.0.10".toList.getD place '\x00'

/-- A configuration with addresses of servers. -/
def configured : Conf where
  serverPort := 7000
  alcaPort := 7001
  logsrvPort := 7002
  commType := 0
  alcaIp := keptRest
  serverIp := keptRest
  logsrvIp := keptRest
  icConfig := ⟨0, 0, 0, 0, 4, 10, 10, 80⟩
  dbmConfig := ⟨10, 1⟩
  peaConfig := ⟨0⟩

/--
An unknown word is looked for behind the table, the word `set` calls a null
pointer, and a shorter address is stored with the end of the longer one.
-/
theorem handleCmdWord_fails :
    handleCmdWord ⟨"metric".toList, by decide⟩ (some ⟨"1\n".toList, by decide⟩) configured =
        .error .outsideTable ∧
      handleCmdWord ⟨"set".toList, by decide⟩ (some ⟨"1\n".toList, by decide⟩) configured =
        .error .nullCall ∧
      handleCmdWord ⟨"pmsip".toList, by decide⟩ (some ⟨"10.0.0.1\n".toList, by decide⟩)
          configured =
        .ok ⟨0, "Set Successfully!\n", configured, []⟩ ∧
      cString configured.serverIp.toList = some "10.0.0.10".toList ∧
      ¬SetsRight ⟨"metric".toList, by decide⟩ (some ⟨"1\n".toList, by decide⟩) configured := by
  have unknown :
      handleCmdWord ⟨"metric".toList, by decide⟩ (some ⟨"1\n".toList, by decide⟩) configured =
        .error .outsideTable := by
    decide
  exact ⟨unknown, by decide, by decide, by decide, not_setsRight unknown⟩

end Vty

end Pma
