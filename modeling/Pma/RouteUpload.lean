import Mathlib.Tactic.Ring
import Pma.Inet
import Pma.LsdbXml
import Pma.RouteTable

namespace Pma

/-!
# The upload of the route table

`send_route_table` of `server/icm.c` prints the route table into a buffer of 80
bytes for each route it was told about.  The list it is handed starts with the
zeroed node that `netlink/route.c` keeps in front of the routes, and it prints
that node as well.  `getmask` builds a mask from its low end.
-/

namespace RouteUpload

open LsdbXml

/-! ## Masks of lengths -/

/-- `getmask`; nothing where it returns before it writes a mask. -/
def getmask (len : Nat) : Option String :=
  if len > 32 then
    none
  else
    some (inetNtoa ((fun dmask : UInt32 => (dmask <<< 1) ||| 1)^[len] 0))

/-- The loop of `get_prefix_length`: how often `b_mask` is shifted until it is zero. -/
def shiftsToZero : Nat → UInt32 → Nat
  | 0, _ => 0
  | fuel + 1, bMask =>
      if bMask = 0 then
        0
      else
        shiftsToZero fuel (bMask <<< 1) + 1

/-- `ntohl`. -/
def ntohl (value : UInt32) : UInt32 :=
  let second : UInt32 := 0xFF00
  (value <<< 24) ||| ((value &&& second) <<< 8) ||| ((value >>> 8) &&& second) ||| (value >>> 24)

/-- `get_prefix_length` behind `inet_aton`; `hostOrder` is that the text starts with a zero. -/
def getPrefixLength (hostOrder : Bool) (nMask : UInt32) : Nat :=
  let bMask := if hostOrder then ntohl nMask else nMask
  32 - shiftsToZero 32 (~~~ bMask)

/-! ## The upload -/

/-- What is printed of `type`. -/
def typeText (type : UInt32) : String :=
  if type ≠ 0 then "remote" else "local"

/-- The gateway in `get_single_route`. -/
def printGateway {size : Nat} (gateway : UInt32) (data : TextBuffer size) :
    Option (TextBuffer size) :=
  if gateway ≠ 0 then
    data.sprintf (inetNtoa gateway ++ " ")
  else
    data.sprintf "0.0.0.0 "

/-- The prints of `get_single_route`; `stale` is what the mask holds when it is not written. -/
def printSingleRoute {size : Nat} (stale : String) (h : Route) (data : TextBuffer size) :
    Option (TextBuffer size) := do
  let mask := (getmask h.prefixlen.toNat).getD stale
  let data ← data.sprintf (inetNtoa h.prefixAddr ++ " " ++ mask ++ " ")
  let data ← printGateway h.gateway data
  data.sprintf
    (decimal h.interfaceId.toInt32 ++ " " ++ typeText h.type ++ " " ++ decimal h.metric.toInt32)

/-- `get_single_route`. -/
def getSingleRoute (stale : String) (h : Route) : Option String :=
  let data : TextBuffer 100 := TextBuffer.cleared (by decide)
  (printSingleRoute stale h data).map TextBuffer.text

/-- The node in front of the routes; it comes from `malloc_z`. -/
def routeHead : Route where
  prefixAddr := 0
  prefixlen := 0
  gateway := 0
  interfaceId := 0
  metric := 0
  type := 0
  dirty := .OLD_STATUS

/-- `struct route_table`; `routes` are those behind the head of the list. -/
structure Table where
  routeTableLen : Int32
  routes : List Route
  deriving Repr, DecidableEq

/-- `get_route_table_by_netlink`, which counts the nodes of the list. -/
def getRouteTableByNetlink (rt : Table) (observed : List ObservedRoute) : Table :=
  let routes := collectRoutes rt.routes observed
  ⟨Int32.ofNat (routeHead :: routes).length, routes⟩

/-- `get_route_table_by_snmp`, which counts the rows it reads. -/
def getRouteTableBySnmp (rt : Table) (observed : List ObservedRoute) : Table :=
  ⟨Int32.ofNat observed.length, collectRoutes rt.routes observed⟩

/-- What `send_route_table` prints first. -/
def header : String :=
  "Destination Mask Gateway Nexthop Type Metric\n"

/-- A pass of the loop of `send_route_table`. -/
def sendRoute {size : Nat} (stale : String) (buff : TextBuffer size) (route : Route) :
    Option (TextBuffer size) := do
  let c ← getSingleRoute stale route
  buff.sprintf (c ++ "\n")

/-- The size of `msg`, the product of two `int`. -/
def bufferSize (rt : Table) : Nat :=
  (rt.routeTableLen * 80).toInt.toNat

/-- `send_route_table`: the text of the message; nothing where it writes outside of a buffer. -/
def sendRouteTable (stale : String) (rt : Table) : Option String := do
  let msg ← malloc (bufferSize rt)
  let msg ← msg.sprintf header
  let msg ← (routeHead :: rt.routes).foldlM (sendRoute stale) msg
  return msg.text

/-! ## What the upload is to carry -/

/-- A byte of a mask, from the number of its bits that belong to the network. -/
def maskByte (bits : Nat) : Nat :=
  256 - 2 ^ (8 - min 8 bits)

/-- The network mask of a prefix length, in dotted notation. -/
def dottedMask (len : Nat) : String :=
  (maskByte len).repr ++ "." ++ (maskByte (len - 8)).repr ++ "." ++
    (maskByte (len - 16)).repr ++ "." ++ (maskByte (len - 24)).repr

/-- The line of a route with the text of its mask. -/
def routeLine (mask : String) (route : Route) : String :=
  inetNtoa route.prefixAddr ++ " " ++ mask ++ " " ++ inetNtoa route.gateway ++ " " ++
    decimal route.interfaceId.toInt32 ++ " " ++ typeText route.type ++ " " ++
    decimal route.metric.toInt32

/-- The header, and a line for each route with the mask of its prefix length. -/
def uploadText (routes : List Route) : String :=
  header ++
    String.join (routes.map fun route => routeLine (dottedMask route.prefixlen.toNat) route ++ "\n")

/-! ## What a line of the upload is -/

/-- The text of the mask in the line of a route. -/
def maskText (stale : String) (route : Route) : String :=
  (getmask route.prefixlen.toNat).getD stale

theorem printGateway_prints
    {size : Nat}
    (gateway : UInt32) :
    TextBuffer.Prints
      (fun data : TextBuffer size => printGateway gateway data)
      (inetNtoa gateway ++ " ") := by
  intro data
  by_cases unset : gateway = 0
  · subst unset
    rfl
  · exact if_pos unset

theorem printSingleRoute_prints
    {size : Nat}
    (stale : String)
    (h : Route) :
    TextBuffer.Prints
      (fun data : TextBuffer size => printSingleRoute stale h data)
      (routeLine (maskText stale h) h) := by
  have parts :=
    (TextBuffer.Prints.sprintf
      (inetNtoa h.prefixAddr ++ " " ++ maskText stale h ++ " ")).bind
      ((@printGateway_prints size h.gateway).bind
        (TextBuffer.Prints.sprintf
          (decimal h.interfaceId.toInt32 ++ " " ++ typeText h.type ++ " " ++
            decimal h.metric.toInt32)))
  intro data
  have line :
      routeLine (maskText stale h) h =
        inetNtoa h.prefixAddr ++ " " ++ maskText stale h ++ " " ++
          (inetNtoa h.gateway ++ " " ++
            (decimal h.interfaceId.toInt32 ++ " " ++ typeText h.type ++ " " ++
              decimal h.metric.toInt32)) := by
    simp only [routeLine, String.append_assoc]
  rw [line]
  exact parts data

/-- `get_single_route` returns the line of the route when its buffer takes it. -/
theorem getSingleRoute_eq
    (stale : String)
    (h : Route) :
    getSingleRoute stale h =
      if (routeLine (maskText stale h) h).utf8ByteSize + 1 ≤ 100 then
        some (routeLine (maskText stale h) h)
      else
        none := by
  have printed := printSingleRoute_prints stale h (TextBuffer.cleared (show 0 < 100 by decide))
  exact (congrArg (Option.map TextBuffer.text) printed).trans (TextBuffer.sprintf_cleared _ _)

/-- The passes of the loop print the line of each route, that of the head among them. -/
theorem sendRoutes_text
    {size : Nat}
    {stale : String}
    {routes : List Route}
    {buff sent : TextBuffer size}
    (loop : routes.foldlM (sendRoute stale) buff = some sent) :
    sent.text =
      buff.text ++
        String.join (routes.map fun route => routeLine (maskText stale route) route ++ "\n") := by
  induction routes generalizing buff with
  | nil =>
      cases loop
      simp
  | cons route rest inductionHypothesis =>
      rw [List.foldlM_cons] at loop
      obtain ⟨next, pass, later⟩ := Option.bind_eq_some_iff.mp loop
      unfold sendRoute at pass
      obtain ⟨line, single, print⟩ := Option.bind_eq_some_iff.mp pass
      rw [getSingleRoute_eq] at single
      have isLine : line = routeLine (maskText stale route) route := by
        split at single
        · exact (Option.some.inj single).symm
        · cases single
      rw [inductionHypothesis later, TextBuffer.text_of_sprintf print, isLine, List.map_cons,
        String.join_cons, String.append_assoc]

/-- What is sent, if anything is: the line of the head stands in front of the routes. -/
theorem sendRouteTable_text
    {stale : String}
    {rt : Table}
    {text : String}
    (sent : sendRouteTable stale rt = some text) :
    text =
      header ++
        String.join ((routeHead :: rt.routes).map fun route =>
          routeLine (maskText stale route) route ++ "\n") := by
  unfold sendRouteTable at sent
  obtain ⟨msg, taken, rest⟩ := Option.bind_eq_some_iff.mp sent
  obtain ⟨titled, print, rest⟩ := Option.bind_eq_some_iff.mp rest
  obtain ⟨filled, loop, isText⟩ := Option.bind_eq_some_iff.mp rest
  have empty : msg.text = "" := by
    unfold malloc at taken
    split at taken
    · cases taken
      rfl
    · cases taken
  have isTitled : titled.text = header := by
    rw [TextBuffer.text_of_sprintf print, empty, String.empty_append]
  cases isText
  rw [sendRoutes_text loop, isTitled]

/-! ## One line for each node of the list -/

/-- How many lines a text has, counted by their ends. -/
def newlines (text : String) : Nat :=
  text.toList.count '\n'

@[simp]
theorem newlines_append
    (first second : String) :
    newlines (first ++ second) = newlines first + newlines second := by
  simp [newlines]

theorem newlines_join
    (texts : List String) :
    newlines (String.join texts) = (texts.map newlines).sum := by
  induction texts with
  | nil =>
      rfl
  | cons text rest inductionHypothesis =>
      rw [String.join_cons, newlines_append, inductionHypothesis]
      rfl

@[simp]
theorem newlines_natRepr
    (value : Nat) :
    newlines value.repr = 0 := by
  rw [newlines, Nat.repr_eq_ofList_toDigits, String.toList_ofList, List.count_eq_zero]
  intro member
  have digit := Nat.isDigit_of_mem_toDigits (by decide) (by decide) member
  cases digit

@[simp]
theorem newlines_decimal
    (value : Int32) :
    newlines (decimal value) = 0 := by
  rw [decimal, Int.toString_eq_repr, Int.repr_eq_if]
  split
  · exact newlines_natRepr _
  · rw [newlines_append, newlines_natRepr]
    rfl

@[simp]
theorem newlines_inetNtoa
    (addr : UInt32) :
    newlines (inetNtoa addr) = 0 := by
  have dot : newlines "." = 0 := by decide
  simp [inetNtoa, dot]

@[simp]
theorem newlines_dottedMask
    (len : Nat) :
    newlines (dottedMask len) = 0 := by
  have dot : newlines "." = 0 := by decide
  simp [dottedMask, dot]

@[simp]
theorem newlines_typeText
    (type : UInt32) :
    newlines (typeText type) = 0 := by
  unfold typeText
  split
  · decide
  · decide

/-- The line of a route has the newlines of its mask. -/
theorem newlines_routeLine
    (mask : String)
    (route : Route) :
    newlines (routeLine mask route) = newlines mask := by
  have blank : newlines " " = 0 := by decide
  simp [routeLine, blank]

theorem newlines_uploadText
    (routes : List Route) :
    newlines (uploadText routes) = 1 + routes.length := by
  have title : newlines header = 1 := by decide
  have ended : newlines "\n" = 1 := by decide
  rw [uploadText, newlines_append, newlines_join, title]
  induction routes with
  | nil =>
      rfl
  | cons route rest inductionHypothesis =>
      simp only [List.map_cons, List.sum_cons, newlines_append, newlines_routeLine,
        newlines_dottedMask, ended, List.length_cons] at inductionHypothesis ⊢
      omega

theorem length_le_newlines
    (stale : String)
    (routes : List Route) :
    routes.length ≤
      newlines
        (String.join (routes.map fun route => routeLine (maskText stale route) route ++ "\n")) := by
  have ended : newlines "\n" = 1 := by decide
  rw [newlines_join]
  induction routes with
  | nil =>
      exact Nat.zero_le _
  | cons route rest inductionHypothesis =>
      simp only [List.map_cons, List.sum_cons, newlines_append, ended, List.length_cons]
      omega

/--
No table is uploaded as it is to be: the head of the list gets a line of its own,
so there is one line more than routes.
-/
theorem sendRouteTable_never_routes
    (stale : String)
    (rt : Table) :
    sendRouteTable stale rt ≠ some (uploadText rt.routes) := by
  intro sent
  have counted := congrArg newlines (sendRouteTable_text sent)
  have title : newlines header = 1 := by decide
  have nodes := length_le_newlines stale (routeHead :: rt.routes)
  rw [newlines_uploadText, newlines_append, title] at counted
  rw [List.length_cons] at nodes
  omega

/-- A table with no route, as `get_route_table_by_netlink` counts it. -/
theorem sendRouteTable_empty :
    sendRouteTable "" (getRouteTableByNetlink ⟨0, []⟩ []) ≠ some (uploadText []) ∧
      sendRouteTable "" (getRouteTableByNetlink ⟨0, []⟩ []) =
        some (header ++ "0.0.0.0 0.0.0.0 0.0.0.0 0 local 0\n") := by
  decide

/-! ## Masks -/

/-- The mask that is printed is the one of the prefix length at the ends of bytes only. -/
theorem getmask_eq_iff
    {len : Nat}
    (inside : len ≤ 32) :
    getmask len = some (dottedMask len) ↔ len % 8 = 0 := by
  have each : ∀ len : Fin 33, getmask len = some (dottedMask len) ↔ (len : Nat) % 8 = 0 := by
    decide
  exact each ⟨len, Nat.lt_succ_of_le inside⟩

/-- The network mask of a prefix length as `inet_aton` reads it. -/
def networkMask (len : Nat) : UInt32 :=
  UInt32.ofNat (maskByte len) ||| (UInt32.ofNat (maskByte (len - 8)) <<< 8) |||
    (UInt32.ofNat (maskByte (len - 16)) <<< 16) ||| (UInt32.ofNat (maskByte (len - 24)) <<< 24)

/-- The other way round a mask loses the bits of the byte that it ends in. -/
theorem getPrefixLength_networkMask
    {len : Nat}
    (inside : len ≤ 32) :
    getPrefixLength (len = 0) (networkMask len) = 8 * (len / 8) := by
  have each :
      ∀ len : Fin 33, getPrefixLength ((len : Nat) = 0) (networkMask len) = 8 * (len / 8) := by
    decide
  exact each ⟨len, Nat.lt_succ_of_le inside⟩

/-! ## When the buffer is large enough -/

theorem utf8ByteSize_inetNtoa_le
    (addr : UInt32) :
    (inetNtoa addr).utf8ByteSize ≤ 15 := by
  have digits (place : UInt32) : (addressByte addr place).repr.utf8ByteSize ≤ 3 :=
    TextBuffer.utf8ByteSize_natRepr_le (by decide)
      (Nat.lt_trans (addressByte_lt addr place) (by decide))
  have first := digits 0
  have second := digits 1
  have third := digits 2
  have fourth := digits 3
  have dot : ".".utf8ByteSize = 1 := by decide
  simp only [inetNtoa, String.utf8ByteSize_append, dot]
  omega

theorem utf8ByteSize_maskText_le
    (stale : String)
    {route : Route}
    (inside : route.prefixlen ≤ 32) :
    (maskText stale route).utf8ByteSize ≤ 15 := by
  have written : ¬route.prefixlen.toNat > 32 := Nat.not_lt.mpr inside
  rw [maskText, getmask, if_neg written]
  exact utf8ByteSize_inetNtoa_le _

theorem utf8ByteSize_typeText_le
    (type : UInt32) :
    (typeText type).utf8ByteSize ≤ 6 := by
  unfold typeText
  split
  · decide
  · decide

/-- The line of a route takes 79 bytes at most, with its end. -/
theorem utf8ByteSize_routeLine_le
    (stale : String)
    {route : Route}
    (inside : route.prefixlen ≤ 32) :
    (routeLine (maskText stale route) route).utf8ByteSize ≤ 78 := by
  have destination := utf8ByteSize_inetNtoa_le route.prefixAddr
  have mask := utf8ByteSize_maskText_le stale inside
  have gateway := utf8ByteSize_inetNtoa_le route.gateway
  have nexthop := TextBuffer.utf8ByteSize_int32_le route.interfaceId.toInt32
  have type := utf8ByteSize_typeText_le route.type
  have metric := TextBuffer.utf8ByteSize_int32_le route.metric.toInt32
  have blank : " ".utf8ByteSize = 1 := by decide
  simp only [routeLine, decimal, String.utf8ByteSize_append, blank]
  omega

/-- `get_single_route` does not leave its own buffer. -/
theorem getSingleRoute_fits
    (stale : String)
    {route : Route}
    (inside : route.prefixlen ≤ 32) :
    getSingleRoute stale route = some (routeLine (maskText stale route) route) := by
  have short := utf8ByteSize_routeLine_le stale inside
  rw [getSingleRoute_eq, if_pos (by omega)]

/-- The text that `send_route_table` prints. -/
def sentText (stale : String) (routes : List Route) : String :=
  header ++
    String.join ((routeHead :: routes).map fun route =>
      routeLine (maskText stale route) route ++ "\n")

theorem sendRoute_prints
    {size : Nat}
    (stale : String)
    {route : Route}
    (inside : route.prefixlen ≤ 32) :
    TextBuffer.Prints
      (fun buff : TextBuffer size => sendRoute stale buff route)
      (routeLine (maskText stale route) route ++ "\n") := by
  intro buff
  change (getSingleRoute stale route).bind (fun c => buff.sprintf (c ++ "\n")) = _
  rw [getSingleRoute_fits stale inside, Option.bind_some]

/-- The upload depends on the size of the buffer only. -/
theorem sendRouteTable_eq
    (stale : String)
    {rt : Table}
    (inside : ∀ route ∈ rt.routes, route.prefixlen ≤ 32) :
    sendRouteTable stale rt =
      if (0 < bufferSize rt ∧ bufferSize rt < 2 ^ 31) ∧
          (sentText stale rt.routes).utf8ByteSize + 1 ≤ bufferSize rt then
        some (sentText stale rt.routes)
      else
        none := by
  have each :
      ∀ route ∈ routeHead :: rt.routes,
        TextBuffer.Prints
          (fun buff : TextBuffer (bufferSize rt) => sendRoute stale buff route)
          (routeLine (maskText stale route) route ++ "\n") := by
    intro route member
    rcases List.mem_cons.mp member with isHead | stored
    · subst isHead
      exact sendRoute_prints stale (by decide)
    · exact sendRoute_prints stale (inside route stored)
  have whole :
      TextBuffer.Prints
        (fun buff => (buff.sprintf header).bind fun buff =>
          (routeHead :: rt.routes).foldlM (sendRoute stale) buff)
        (sentText stale rt.routes) :=
    (TextBuffer.Prints.sprintf header).bind (TextBuffer.Prints.foldlM each)
  by_cases room : 0 < bufferSize rt ∧ bufferSize rt < 2 ^ 31
  · have taken : malloc (bufferSize rt) = some (TextBuffer.cleared room.1) := dif_pos room
    have printed := TextBuffer.sprintf_cleared room.1 (sentText stale rt.routes)
    rw [← whole, Option.map_eq_bind] at printed
    change
      ((malloc (bufferSize rt)).bind fun msg =>
        (msg.sprintf header).bind fun msg =>
          ((routeHead :: rt.routes).foldlM (sendRoute stale) msg).bind fun msg =>
            some msg.text) = _
    simpa only [taken, room, true_and, and_self, Option.bind_some, Option.bind_assoc,
      Function.comp_def] using printed
  · have refused : malloc (bufferSize rt) = none := dif_neg room
    rw [if_neg (fun both => room both.1), sendRouteTable, refused]
    rfl

theorem utf8ByteSize_sentText_le
    (stale : String)
    {routes : List Route}
    (inside : ∀ route ∈ routes, route.prefixlen ≤ 32) :
    (sentText stale routes).utf8ByteSize ≤ 79 + 79 * routes.length := by
  have first :
      (header ++ (routeLine (maskText stale routeHead) routeHead ++ "\n")).utf8ByteSize = 79 := by
    have written : maskText stale routeHead = "0.0.0.0" := by
      rfl
    rw [written]
    decide
  have ended : "\n".utf8ByteSize = 1 := by decide
  rw [sentText, List.map_cons, String.join_cons, ← String.append_assoc,
    String.utf8ByteSize_append, first, TextBuffer.utf8ByteSize_join, Nat.add_le_add_iff_left]
  induction routes with
  | nil =>
      exact Nat.zero_le _
  | cons route rest inductionHypothesis =>
      have line := utf8ByteSize_routeLine_le stale (inside route List.mem_cons_self)
      have later := inductionHypothesis fun other member =>
        inside other (List.mem_cons_of_mem _ member)
      simp only [List.map_cons, List.sum_cons, String.utf8ByteSize_append, ended,
        List.length_cons] at later ⊢
      omega

/-- The count of `get_route_table_by_netlink` has 80 bytes for the head as well: all is sent. -/
theorem sendRouteTable_netlink
    (stale : String)
    {rt : Table}
    {observed : List ObservedRoute}
    (inside : ∀ route ∈ collectRoutes rt.routes observed, route.prefixlen ≤ 32)
    (few : ((collectRoutes rt.routes observed).length + 1) * 80 < 2 ^ 31) :
    sendRouteTable stale (getRouteTableByNetlink rt observed) =
      some (sentText stale (collectRoutes rt.routes observed)) := by
  have size :
      bufferSize (getRouteTableByNetlink rt observed) =
        ((collectRoutes rt.routes observed).length + 1) * 80 := by
    have product :
        Int32.ofNat ((collectRoutes rt.routes observed).length + 1) * 80 =
          Int32.ofNat (((collectRoutes rt.routes observed).length + 1) * 80) := by
      rw [Int32.ofNat_mul]
      rfl
    change (Int32.ofNat ((collectRoutes rt.routes observed).length + 1) * 80).toInt.toNat = _
    rw [product, Int32.toInt_ofNat_of_lt few, Int.toNat_natCast]
  have fits := utf8ByteSize_sentText_le stale inside
  rw [sendRouteTable_eq stale inside, size, if_pos]
  · rfl
  · change _ ∧ (sentText stale (collectRoutes rt.routes observed)).utf8ByteSize + 1 ≤ _
    omega

end RouteUpload

end Pma
