import Mathlib.Tactic.Linarith
import Mathlib.Tactic.Ring
import Pma.Fah
import Pma.LidbMatrix
import Pma.TextBuffer

namespace Pma

/-!
# The link state table as a document

`db/dbm_lsdb.c` prints rows of `pma_lsdb` for the management server into a buffer
that it takes before it prints.  For one area the size is counted in links of the
area; for the snapshot of all areas it is counted in areas, whatever the number
of links of the local router.
-/

/-- What `pack_lsdb_xml_header` reads of `struct tm`. -/
structure Tm where
  tmYear : Int32
  tmMon : Int32
  tmMday : Int32
  tmHour : Int32
  tmMin : Int32
  tmSec : Int32
  deriving Repr, DecidableEq

namespace LsdbXml

/-! ## Formats -/

/-- `%d` of an `int`. -/
def decimal (value : Int32) : String :=
  toString value.toInt

/-- `%4d`. -/
def decimal4 (value : Int32) : String :=
  String.ofList (List.replicate (4 - (decimal value).length) ' ') ++ decimal value

/-! ## The queries -/

/-- `get_link_states`. -/
def getLinkStates (rows : List DbmLink) (areaid : UInt32) : List DbmLink :=
  rows.filter (·.areaid = areaid)

/-- `get_link_states_of_router`. -/
def getLinkStatesOfRouter (rows : List DbmLink) (areaid routerid : UInt32) : List DbmLink :=
  rows.filter fun row => row.areaid = areaid ∧ row.rid = routerid

/-- `get_routers`. -/
def getRouters (rows : List DbmLink) (areaid : UInt32) : List UInt32 :=
  Lidb.getRouters (rows.map DbmLink.topoLink) areaid

/-- `get_areaes`. -/
def getAreaes (rows : List DbmLink) : List UInt32 :=
  Lidb.getAreaes (rows.map DbmLink.topoLink)

/-! ## Printing -/

section

variable {size : Nat}

/-- `pack_lsdb_xml_header`. -/
def packLsdbXmlHeader (pmaId : Int32) (timeInfo : Tm) (buff : TextBuffer size) :
    Option (TextBuffer size) := do
  let buff ← buff.sprintf "<?xml version=\"1.0\" encoding=\"UTF-8\"?>\n<LINKSTATE>\n"
  let buff ← buff.sprintf
    ("<timestamp>" ++ decimal4 (1900 + timeInfo.tmYear) ++ "-" ++ decimal (1 + timeInfo.tmMon) ++
      "-" ++ decimal timeInfo.tmMday ++ " " ++ decimal timeInfo.tmHour ++ ":" ++
      decimal timeInfo.tmMin ++ ":" ++ decimal timeInfo.tmSec ++ "</timestamp>\n")
  buff.sprintf ("<device id=\"" ++ decimal pmaId ++ "\">\n")

/-- A pass of the loop of `pack_lsdb_xml_router_of_area`. -/
def packLink (buff : TextBuffer size) (links : DbmLink) : Option (TextBuffer size) := do
  let buff ← buff.sprintf ("\t\t<interface id=\"" ++ decimal links.ifid.toInt32 ++ "\">\n")
  let buff ← buff.sprintf
    ("\t\t\t<n_device_id>" ++ decimal links.nrid.toInt32 ++ "</n_device_id>\n")
  let buff ← buff.sprintf
    ("\t\t\t<n_interface_id>" ++ decimal links.nifid.toInt32 ++ "</n_interface_id>\n")
  let buff ← buff.sprintf ("\t\t\t<metric>" ++ decimal links.metric.toInt32 ++ "</metric>\n")
  let buff ← buff.sprintf ("\t\t\t<state>" ++ decimal links.status.toInt32 ++ "</state>\n")
  buff.sprintf "\t\t</interface>\n"

/-- `pack_lsdb_xml_router_of_area`. -/
def packLsdbXmlRouterOfArea (rows : List DbmLink) (buff : TextBuffer size)
    (routerid areaid : UInt32) : Option (TextBuffer size) :=
  (getLinkStatesOfRouter rows areaid routerid).foldlM packLink buff

/-- A pass of the loop of `format_lsdb_to_xml`. -/
def packRouter (rows : List DbmLink) (areaid deviceid : UInt32) (type : Int32)
    (buff : TextBuffer size) (rid : UInt32) : Option (TextBuffer size) :=
  if type = 1 ∧ rid ≠ deviceid then
    some buff
  else
    packLsdbXmlRouterOfArea rows buff rid areaid

/-- `pack_lsdb_xml_footer`. -/
def packLsdbXmlFooter (buff : TextBuffer size) : Option (TextBuffer size) :=
  buff.sprintf "</device>\n</LINKSTATE>\n"

end

/-- `malloc` and `memset` of a size that is an `int`. -/
def malloc (size : Nat) : Option (TextBuffer size) :=
  if inside : 0 < size ∧ size < 2 ^ 31 then
    some (TextBuffer.cleared inside.1)
  else
    none

/-- The size of the buffer of `format_lsdb_to_xml`. -/
def areaSize (rows : List DbmLink) (areaid : UInt32) : Nat :=
  (getLinkStates rows areaid).length * 200 + 1024

/-- `format_lsdb_to_xml`; nothing where it writes outside of its buffer. -/
def formatLsdbToXml (rows : List DbmLink) (pmaId : Int32) (timeInfo : Tm)
    (areaid deviceid : UInt32) (type : Int32) : Option String := do
  let buff ← malloc (areaSize rows areaid)
  let buff ← packLsdbXmlHeader pmaId timeInfo buff
  let buff ← (getRouters rows areaid).foldlM (packRouter rows areaid deviceid type) buff
  let buff ← packLsdbXmlFooter buff
  return buff.text

/-- The size of the buffer of `format_all_area_lsdb_to_xml`. -/
def allAreaSize (rows : List DbmLink) : Nat :=
  (getAreaes rows).length * 200 * 15 + 1024

/-- `format_all_area_lsdb_to_xml`; nothing where it writes outside of its buffer. -/
def formatAllAreaLsdbToXml (rows : List DbmLink) (pmaId : Int32) (timeInfo : Tm)
    (routerid : UInt32) : Option String := do
  let buff ← malloc (allAreaSize rows)
  let buff ← packLsdbXmlHeader pmaId timeInfo buff
  let buff ← (getAreaes rows).foldlM (packLsdbXmlRouterOfArea rows · routerid ·) buff
  let buff ← packLsdbXmlFooter buff
  return buff.text

/-! ## The document -/

/-- The lines before the links. -/
def headerXml (pmaId : Int32) (timeInfo : Tm) : String :=
  String.join
    ["<?xml version=\"1.0\" encoding=\"UTF-8\"?>\n<LINKSTATE>\n",
      "<timestamp>", decimal4 (1900 + timeInfo.tmYear), "-", decimal (1 + timeInfo.tmMon), "-",
      decimal timeInfo.tmMday, " ", decimal timeInfo.tmHour, ":", decimal timeInfo.tmMin, ":",
      decimal timeInfo.tmSec, "</timestamp>\n",
      "<device id=\"", decimal pmaId, "\">\n"]

/-- The lines of a link. -/
def linkXml (link : DbmLink) : String :=
  String.join
    ["\t\t<interface id=\"", decimal link.ifid.toInt32, "\">\n",
      "\t\t\t<n_device_id>", decimal link.nrid.toInt32, "</n_device_id>\n",
      "\t\t\t<n_interface_id>", decimal link.nifid.toInt32, "</n_interface_id>\n",
      "\t\t\t<metric>", decimal link.metric.toInt32, "</metric>\n",
      "\t\t\t<state>", decimal link.status.toInt32, "</state>\n",
      "\t\t</interface>\n"]

/-- A document with these links, in this order. -/
def lsdbXml (pmaId : Int32) (timeInfo : Tm) (links : List DbmLink) : String :=
  headerXml pmaId timeInfo ++
    (String.join (links.map linkXml) ++ "</device>\n</LINKSTATE>\n")

/-- The links of an area that `format_lsdb_to_xml` selects. -/
def selectedLinks (rows : List DbmLink) (areaid deviceid : UInt32) (type : Int32) :
    List DbmLink :=
  rows.filter fun row => row.areaid = areaid ∧ (type = 1 → row.rid = deviceid)

/-- The links in the order in which `format_lsdb_to_xml` meets them. -/
def areaLinks (rows : List DbmLink) (areaid deviceid : UInt32) (type : Int32) : List DbmLink :=
  ((getRouters rows areaid).filter fun rid => type = 1 → rid = deviceid).flatMap
    (getLinkStatesOfRouter rows areaid)

/-- The links in the order in which `format_all_area_lsdb_to_xml` meets them. -/
def allAreaLinks (rows : List DbmLink) (routerid : UInt32) : List DbmLink :=
  (getAreaes rows).flatMap (getLinkStatesOfRouter rows · routerid)

/-! ## What is printed -/

section

variable {size : Nat} {pmaId : Int32} {timeInfo : Tm}

theorem packLsdbXmlHeader_prints :
    TextBuffer.Prints (fun buff : TextBuffer size => packLsdbXmlHeader pmaId timeInfo buff)
      (headerXml pmaId timeInfo) := by
  intro buff
  simp only [packLsdbXmlHeader, headerXml, String.join_cons, String.join_nil, String.append_empty,
    TextBuffer.sprintf_append, Option.bind_eq_bind, Option.bind_assoc]

theorem packLink_prints
    (link : DbmLink) :
    TextBuffer.Prints (fun buff : TextBuffer size => packLink buff link) (linkXml link) := by
  intro buff
  simp only [packLink, linkXml, String.join_cons, String.join_nil, String.append_empty,
    TextBuffer.sprintf_append, Option.bind_eq_bind, Option.bind_assoc]

theorem packLsdbXmlRouterOfArea_prints
    (rows : List DbmLink)
    (routerid areaid : UInt32) :
    TextBuffer.Prints
      (fun buff : TextBuffer size => packLsdbXmlRouterOfArea rows buff routerid areaid)
      (String.join ((getLinkStatesOfRouter rows areaid routerid).map linkXml)) :=
  TextBuffer.Prints.foldlM fun link _ => packLink_prints link

/-- A document from its buffer: a part between header and footer. -/
theorem document
    {links : List DbmLink}
    {part : TextBuffer size → Option (TextBuffer size)}
    (prints : TextBuffer.Prints part (String.join (links.map linkXml))) :
    ((malloc size).bind fun buff =>
      (packLsdbXmlHeader pmaId timeInfo buff).bind fun buff =>
        (part buff).bind fun buff =>
          (packLsdbXmlFooter buff).bind fun buff => some buff.text) =
      if (0 < size ∧ size < 2 ^ 31) ∧
          (lsdbXml pmaId timeInfo links).utf8ByteSize + 1 ≤ size then
        some (lsdbXml pmaId timeInfo links)
      else
        none := by
  by_cases inside : 0 < size ∧ size < 2 ^ 31
  · have whole :
        TextBuffer.Prints
          (fun buff : TextBuffer size => (packLsdbXmlHeader pmaId timeInfo buff).bind fun buff =>
            (part buff).bind packLsdbXmlFooter)
          (lsdbXml pmaId timeInfo links) :=
      packLsdbXmlHeader_prints.bind (prints.bind (TextBuffer.Prints.sprintf _))
    have printed := TextBuffer.sprintf_cleared inside.1 (lsdbXml pmaId timeInfo links)
    rw [← whole] at printed
    have taken : malloc size = some (TextBuffer.cleared inside.1) := dif_pos inside
    simpa only [taken, inside, true_and, and_self, Option.bind_some, Option.map_eq_bind,
      Option.bind_assoc, Function.comp_def] using printed
  · have refused : malloc size = none := dif_neg inside
    simp only [refused, inside, false_and, Option.bind_none, if_false]

end

/-- Grouping a list by a key reorders it. -/
theorem perm_flatMap_filter
    {Item Key : Type*}
    [DecidableEq Key]
    (key : Item → Key)
    {keys : List Key}
    (nodup : keys.Nodup)
    (items : List Item) :
    (keys.flatMap fun value => items.filter (key · = value)).Perm
      (items.filter (key · ∈ keys)) := by
  induction keys with
  | nil =>
      simp
  | cons value rest inductionHypothesis =>
      obtain ⟨fresh, nodupRest⟩ := List.nodup_cons.mp nodup
      have later := inductionHypothesis nodupRest
      have first :
          items.filter (key · = value) =
            (items.filter (key · ∈ value :: rest)).filter (key · = value) := by
        rw [List.filter_filter]
        apply List.filter_congr
        intro item _
        simp +contextual
      have others :
          items.filter (key · ∈ rest) =
            (items.filter (key · ∈ value :: rest)).filter
              fun item => !decide (key item = value) := by
        rw [List.filter_filter]
        apply List.filter_congr
        intro item _
        by_cases same : key item = value
        · simp [same, fresh]
        · simp [same]
      rw [List.flatMap_cons, first]
      rw [others] at later
      exact (later.append_left _).trans (List.filter_append_perm _ _)

/-! ## The links that are printed -/

section

variable {rows : List DbmLink} {areaid deviceid routerid : UInt32} {type : Int32}

theorem mem_getRouters
    {rid : UInt32} :
    rid ∈ getRouters rows areaid ↔ ∃ row ∈ rows, row.areaid = areaid ∧ row.rid = rid := by
  simp [getRouters, Lidb.mem_getRouters, Lidb.mem_getLinkStates, DbmLink.topoLink, and_assoc]

theorem mem_getAreaes :
    areaid ∈ getAreaes rows ↔ ∃ row ∈ rows, row.areaid = areaid := by
  simp [getAreaes, Lidb.getAreaes, DbmLink.topoLink]

/-- The loop over the routers meets each selected link once. -/
theorem perm_areaLinks :
    (areaLinks rows areaid deviceid type).Perm (selectedLinks rows areaid deviceid type) := by
  have ofRouter
      (rid : UInt32) :
      getLinkStatesOfRouter rows areaid rid =
        (getLinkStates rows areaid).filter (·.rid = rid) := by
    simp [getLinkStatesOfRouter, getLinkStates, List.filter_filter, Bool.and_comm]
  have nodup :
      ((getRouters rows areaid).filter fun rid => type = 1 → rid = deviceid).Nodup :=
    (Lidb.nodup_getRouters _ _).filter _
  have grouped := perm_flatMap_filter DbmLink.rid nodup (getLinkStates rows areaid)
  have selected :
      (getLinkStates rows areaid).filter
          (·.rid ∈ (getRouters rows areaid).filter fun rid => type = 1 → rid = deviceid) =
        selectedLinks rows areaid deviceid type := by
    unfold getLinkStates selectedLinks
    rw [List.filter_filter]
    apply List.filter_congr
    intro row member
    by_cases inArea : row.areaid = areaid
    · have isRouter : row.rid ∈ getRouters rows areaid :=
        mem_getRouters.mpr ⟨row, member, inArea, rfl⟩
      simp [inArea, isRouter]
    · simp [inArea]
  unfold areaLinks
  rw [funext ofRouter]
  exact selected ▸ grouped

/-- The loop over the areas meets each link of the router once. -/
theorem perm_allAreaLinks :
    (allAreaLinks rows routerid).Perm (rows.filter (·.rid = routerid)) := by
  have ofRouter
      (areaid : UInt32) :
      getLinkStatesOfRouter rows areaid routerid =
        (rows.filter (·.rid = routerid)).filter (·.areaid = areaid) := by
    simp [getLinkStatesOfRouter, List.filter_filter]
  have nodup : (getAreaes rows).Nodup := List.nodup_dedup _
  have grouped := perm_flatMap_filter DbmLink.areaid nodup (rows.filter (·.rid = routerid))
  have all :
      (rows.filter (·.rid = routerid)).filter (·.areaid ∈ getAreaes rows) =
        rows.filter (·.rid = routerid) := by
    apply List.filter_eq_self.mpr
    intro row member
    exact decide_eq_true (mem_getAreaes.mpr ⟨row, List.mem_of_mem_filter member, rfl⟩)
  unfold allAreaLinks
  rw [funext ofRouter]
  rw [all] at grouped
  exact grouped

end

/-! ## Sizes -/

/-- The bytes of the lines of a link: 143 and the digits of five numbers. -/
def linkSize (link : DbmLink) : Nat :=
  143 + (decimal link.ifid.toInt32).utf8ByteSize + (decimal link.nrid.toInt32).utf8ByteSize +
    (decimal link.nifid.toInt32).utf8ByteSize + (decimal link.metric.toInt32).utf8ByteSize +
    (decimal link.status.toInt32).utf8ByteSize

theorem utf8ByteSize_decimal_le
    (value : Int32) :
    (decimal value).utf8ByteSize ≤ 11 :=
  TextBuffer.utf8ByteSize_int32_le value

theorem utf8ByteSize_decimal4_le
    (value : Int32) :
    (decimal4 value).utf8ByteSize ≤ 15 := by
  have blanks :
      (String.ofList (List.replicate (4 - (decimal value).length) ' ')).utf8ByteSize ≤ 4 := by
    rw [TextBuffer.utf8ByteSize_eq_length]
    · simp
    · simp [Char.utf8Size]
  have digits := utf8ByteSize_decimal_le value
  unfold decimal4
  rw [String.utf8ByteSize_append]
  omega

theorem utf8ByteSize_linkXml
    (link : DbmLink) :
    (linkXml link).utf8ByteSize = linkSize link := by
  have fixed :
      "\t\t<interface id=\"".utf8ByteSize = 17 ∧
        "\">\n".utf8ByteSize = 3 ∧
        "\t\t\t<n_device_id>".utf8ByteSize = 16 ∧
        "</n_device_id>\n".utf8ByteSize = 15 ∧
        "\t\t\t<n_interface_id>".utf8ByteSize = 19 ∧
        "</n_interface_id>\n".utf8ByteSize = 18 ∧
        "\t\t\t<metric>".utf8ByteSize = 11 ∧
        "</metric>\n".utf8ByteSize = 10 ∧
        "\t\t\t<state>".utf8ByteSize = 10 ∧
        "</state>\n".utf8ByteSize = 9 ∧
        "\t\t</interface>\n".utf8ByteSize = 15 := by
    decide
  simp only [linkXml, linkSize, TextBuffer.utf8ByteSize_join, List.map_cons, List.map_nil,
    List.sum_cons, List.sum_nil, fixed]
  ring

theorem linkSize_le
    (link : DbmLink) :
    linkSize link ≤ 200 := by
  have ifid := utf8ByteSize_decimal_le link.ifid.toInt32
  have nrid := utf8ByteSize_decimal_le link.nrid.toInt32
  have nifid := utf8ByteSize_decimal_le link.nifid.toInt32
  have metric := utf8ByteSize_decimal_le link.metric.toInt32
  have status := utf8ByteSize_decimal_le link.status.toInt32
  unfold linkSize
  omega

/-- Header and footer leave room for the terminator in 1024 bytes. -/
theorem utf8ByteSize_headerXml_le
    (pmaId : Int32)
    (timeInfo : Tm) :
    (headerXml pmaId timeInfo).utf8ByteSize ≤ 900 := by
  have fixed :
      "<?xml version=\"1.0\" encoding=\"UTF-8\"?>\n<LINKSTATE>\n".utf8ByteSize = 51 ∧
        "<timestamp>".utf8ByteSize = 11 ∧
        "-".utf8ByteSize = 1 ∧
        " ".utf8ByteSize = 1 ∧
        ":".utf8ByteSize = 1 ∧
        "</timestamp>\n".utf8ByteSize = 13 ∧
        "<device id=\"".utf8ByteSize = 12 ∧
        "\">\n".utf8ByteSize = 3 := by
    decide
  have year := utf8ByteSize_decimal4_le (1900 + timeInfo.tmYear)
  have mon := utf8ByteSize_decimal_le (1 + timeInfo.tmMon)
  have mday := utf8ByteSize_decimal_le timeInfo.tmMday
  have hour := utf8ByteSize_decimal_le timeInfo.tmHour
  have minute := utf8ByteSize_decimal_le timeInfo.tmMin
  have sec := utf8ByteSize_decimal_le timeInfo.tmSec
  have id := utf8ByteSize_decimal_le pmaId
  simp only [headerXml, TextBuffer.utf8ByteSize_join, List.map_cons, List.map_nil,
    List.sum_cons, List.sum_nil, fixed]
  linarith

theorem utf8ByteSize_lsdbXml
    (pmaId : Int32)
    (timeInfo : Tm)
    (links : List DbmLink) :
    (lsdbXml pmaId timeInfo links).utf8ByteSize =
      (headerXml pmaId timeInfo).utf8ByteSize + (links.map linkSize).sum + 23 := by
  have footer : "</device>\n</LINKSTATE>\n".utf8ByteSize = 23 := by decide
  have sizes : (links.map linkXml).map String.utf8ByteSize = links.map linkSize := by
    simp only [List.map_map, Function.comp_def, utf8ByteSize_linkXml]
  simp only [lsdbXml, String.utf8ByteSize_append, TextBuffer.utf8ByteSize_join, sizes, footer]
  ring

theorem utf8ByteSize_lsdbXml_le
    (pmaId : Int32)
    (timeInfo : Tm)
    (links : List DbmLink) :
    (lsdbXml pmaId timeInfo links).utf8ByteSize + 1 ≤ links.length * 200 + 1024 := by
  have header := utf8ByteSize_headerXml_le pmaId timeInfo
  have each : (links.map linkSize).sum ≤ links.length * 200 := by
    induction links with
    | nil =>
        simp
    | cons link rest inductionHypothesis =>
        have first := linkSize_le link
        simp only [List.map_cons, List.sum_cons, List.length_cons]
        linarith
  rw [utf8ByteSize_lsdbXml]
  linarith

/-! ## The two documents -/

section

variable {rows : List DbmLink} {pmaId : Int32} {timeInfo : Tm}

/-- The loop over the routers of an area, which passes over some of them. -/
theorem routers_print
    {size : Nat}
    (areaid deviceid : UInt32)
    (type : Int32) :
    TextBuffer.Prints
      (fun buff : TextBuffer size =>
        (getRouters rows areaid).foldlM (packRouter rows areaid deviceid type) buff)
      (String.join ((areaLinks rows areaid deviceid type).map linkXml)) := by
  let text (rid : UInt32) : String :=
    if type = 1 ∧ rid ≠ deviceid then
      ""
    else
      String.join ((getLinkStatesOfRouter rows areaid rid).map linkXml)
  have loop :
      TextBuffer.Prints
        (fun buff : TextBuffer size =>
          (getRouters rows areaid).foldlM (packRouter rows areaid deviceid type) buff)
        (String.join ((getRouters rows areaid).map text)) := by
    apply TextBuffer.Prints.foldlM
    intro rid _ buff
    by_cases skipped : type = 1 ∧ rid ≠ deviceid
    · simp only [packRouter, text, if_pos skipped, TextBuffer.sprintf_empty]
    · simp only [packRouter, text, if_neg skipped]
      exact packLsdbXmlRouterOfArea_prints rows rid areaid buff
  have printed :
      String.join ((getRouters rows areaid).map text) =
        String.join ((areaLinks rows areaid deviceid type).map linkXml) := by
    unfold areaLinks
    rw [List.map_flatMap, TextBuffer.join_flatMap]
    induction getRouters rows areaid with
    | nil =>
        rfl
    | cons rid rest inductionHypothesis =>
        by_cases kept : type = 1 → rid = deviceid
        · have notSkipped : ¬(type = 1 ∧ rid ≠ deviceid) := fun skipped =>
            skipped.2 (kept skipped.1)
          rw [List.filter_cons, if_pos (decide_eq_true kept)]
          simp only [List.map_cons, String.join_cons, inductionHypothesis, text, if_neg notSkipped]
        · have skipped : type = 1 ∧ rid ≠ deviceid := by simpa using kept
          rw [List.filter_cons, if_neg (by simpa using kept)]
          simp only [List.map_cons, String.join_cons, inductionHypothesis, text, if_pos skipped,
            String.empty_append]
  exact printed ▸ loop

/-- The document of an area, if its buffer holds it. -/
theorem formatLsdbToXml_eq
    (areaid deviceid : UInt32)
    (type : Int32) :
    formatLsdbToXml rows pmaId timeInfo areaid deviceid type =
      if areaSize rows areaid < 2 ^ 31 ∧
          (lsdbXml pmaId timeInfo (areaLinks rows areaid deviceid type)).utf8ByteSize + 1 ≤
            areaSize rows areaid then
        some (lsdbXml pmaId timeInfo (areaLinks rows areaid deviceid type))
      else
        none := by
  have prints := @routers_print rows (areaSize rows areaid) areaid deviceid type
  have whole := @document (areaSize rows areaid) pmaId timeInfo _ _ prints
  have positive : 0 < areaSize rows areaid := Nat.succ_pos _
  simp only [positive, true_and] at whole
  exact whole

/-- The document of all areas, if its buffer holds it. -/
theorem formatAllAreaLsdbToXml_eq
    (routerid : UInt32) :
    formatAllAreaLsdbToXml rows pmaId timeInfo routerid =
      if allAreaSize rows < 2 ^ 31 ∧
          (lsdbXml pmaId timeInfo (allAreaLinks rows routerid)).utf8ByteSize + 1 ≤
            allAreaSize rows then
        some (lsdbXml pmaId timeInfo (allAreaLinks rows routerid))
      else
        none := by
  have prints :
      TextBuffer.Prints
        (fun buff : TextBuffer (allAreaSize rows) =>
          (getAreaes rows).foldlM (packLsdbXmlRouterOfArea rows · routerid ·) buff)
        (String.join ((allAreaLinks rows routerid).map linkXml)) := by
    unfold allAreaLinks
    rw [List.map_flatMap, TextBuffer.join_flatMap]
    apply TextBuffer.Prints.foldlM
    intro areaid _
    exact packLsdbXmlRouterOfArea_prints rows routerid areaid
  have whole := @document (allAreaSize rows) pmaId timeInfo _ _ prints
  have positive : 0 < allAreaSize rows := Nat.succ_pos _
  simp only [positive, true_and] at whole
  exact whole

/--
The document of an area has each selected link once and fits into its buffer,
whatever the table holds; the call returns it if the size of the buffer is an
`int`.
-/
theorem formatLsdbToXml_fits
    (rows : List DbmLink)
    (pmaId : Int32)
    (timeInfo : Tm)
    (areaid deviceid : UInt32)
    (type : Int32) :
    (areaLinks rows areaid deviceid type).Perm (selectedLinks rows areaid deviceid type) ∧
      (lsdbXml pmaId timeInfo (areaLinks rows areaid deviceid type)).utf8ByteSize + 1 ≤
        (getLinkStates rows areaid).length * 200 + 1024 ∧
      (areaSize rows areaid < 2 ^ 31 →
        formatLsdbToXml rows pmaId timeInfo areaid deviceid type =
          some (lsdbXml pmaId timeInfo (areaLinks rows areaid deviceid type))) := by
  have once : (areaLinks rows areaid deviceid type).Perm _ := perm_areaLinks
  have fewer :
      (areaLinks rows areaid deviceid type).length ≤ (getLinkStates rows areaid).length := by
    rw [once.length_eq]
    apply List.Sublist.length_le
    apply List.monotone_filter_right
    intro row selected
    simp only [decide_eq_true_eq] at selected ⊢
    exact selected.1
  have fits :
      (lsdbXml pmaId timeInfo (areaLinks rows areaid deviceid type)).utf8ByteSize + 1 ≤
        (getLinkStates rows areaid).length * 200 + 1024 := by
    have room := utf8ByteSize_lsdbXml_le pmaId timeInfo (areaLinks rows areaid deviceid type)
    linarith
  refine ⟨once, fits, ?_⟩
  intro inside
  rw [formatLsdbToXml_eq]
  exact if_pos ⟨inside, fits⟩

/-- The bytes of the snapshot of all areas that are known before it is printed. -/
def snapshotSize (rows : List DbmLink) (pmaId : Int32) (timeInfo : Tm) (routerid : UInt32) : Nat :=
  (headerXml pmaId timeInfo).utf8ByteSize +
    ((rows.filter (·.rid = routerid)).map linkSize).sum + 24

/--
The snapshot of all areas fits into its buffer if and only if the links of the
router in the table need no more than 3000 bytes for each area of the table.
-/
theorem formatAllAreaLsdbToXml_fits_iff
    (rows : List DbmLink)
    (pmaId : Int32)
    (timeInfo : Tm)
    (routerid : UInt32) :
    ((lsdbXml pmaId timeInfo (allAreaLinks rows routerid)).utf8ByteSize + 1 ≤
        (getAreaes rows).length * 200 * 15 + 1024 ↔
      snapshotSize rows pmaId timeInfo routerid ≤ (getAreaes rows).length * 3000 + 1024) ∧
    (allAreaSize rows < 2 ^ 31 →
      (formatAllAreaLsdbToXml rows pmaId timeInfo routerid =
          some (lsdbXml pmaId timeInfo (allAreaLinks rows routerid)) ↔
        snapshotSize rows pmaId timeInfo routerid ≤ (getAreaes rows).length * 3000 + 1024)) := by
  have links : (allAreaLinks rows routerid).Perm _ := perm_allAreaLinks
  have size :
      (lsdbXml pmaId timeInfo (allAreaLinks rows routerid)).utf8ByteSize + 1 =
        snapshotSize rows pmaId timeInfo routerid := by
    rw [utf8ByteSize_lsdbXml, (links.map linkSize).sum_eq]
    rfl
  have room : allAreaSize rows = (getAreaes rows).length * 3000 + 1024 := by
    unfold allAreaSize
    rw [Nat.mul_assoc]
  constructor
  · rw [size]
    exact room ▸ Iff.rfl
  · intro inside
    rw [formatAllAreaLsdbToXml_eq, size]
    rw [room] at inside ⊢
    simp only [inside, true_and]
    simp

/-- A router with 30 links in its only area. -/
def manyLinks : List DbmLink :=
  (List.range 30).map fun ifid => ⟨1, 1, 2, ifid.toUInt32, 1, 1, 3, 1, ⟨0, 0⟩⟩

theorem manyLinks_overrun :
    ¬(lsdbXml 1 ⟨126, 0, 1, 0, 0, 0⟩ (allAreaLinks manyLinks 1)).utf8ByteSize + 1 ≤
        (getAreaes manyLinks).length * 200 * 15 + 1024 ∧
      formatAllAreaLsdbToXml manyLinks 1 ⟨126, 0, 1, 0, 0, 0⟩ 1 = none := by
  have links : (allAreaLinks manyLinks 1).Perm _ := perm_allAreaLinks
  have printed : 4440 ≤ ((manyLinks.filter (·.rid = 1)).map linkSize).sum := by decide
  have size : (getAreaes manyLinks).length * 200 * 15 + 1024 = 4024 := by decide
  have overrun :
      ¬(lsdbXml 1 ⟨126, 0, 1, 0, 0, 0⟩ (allAreaLinks manyLinks 1)).utf8ByteSize + 1 ≤
        (getAreaes manyLinks).length * 200 * 15 + 1024 := by
    rw [utf8ByteSize_lsdbXml, (links.map linkSize).sum_eq, size]
    intro fits
    linarith
  refine ⟨overrun, ?_⟩
  rw [formatAllAreaLsdbToXml_eq]
  exact if_neg fun fits => overrun fits.2

/-- The links of one area are counted: its document has room for all of them. -/
theorem formatLsdbToXml_manyLinks :
    formatLsdbToXml manyLinks 1 ⟨126, 0, 1, 0, 0, 0⟩ 1 1 1 =
      some (lsdbXml 1 ⟨126, 0, 1, 0, 0, 0⟩ (areaLinks manyLinks 1 1 1)) := by
  have inside : areaSize manyLinks 1 < 2 ^ 31 := by decide
  exact (formatLsdbToXml_fits manyLinks 1 ⟨126, 0, 1, 0, 0, 0⟩ 1 1 1).2.2 inside

/-- Ten links of the router fit into the snapshot. -/
theorem formatAllAreaLsdbToXml_tenLinks :
    formatAllAreaLsdbToXml (manyLinks.take 10) 1 ⟨126, 0, 1, 0, 0, 0⟩ 1 =
      some (lsdbXml 1 ⟨126, 0, 1, 0, 0, 0⟩ (allAreaLinks (manyLinks.take 10) 1)) := by
  have inside : allAreaSize (manyLinks.take 10) < 2 ^ 31 := by decide
  have room :
      snapshotSize (manyLinks.take 10) 1 ⟨126, 0, 1, 0, 0, 0⟩ 1 ≤
        (getAreaes (manyLinks.take 10)).length * 3000 + 1024 := by
    have header := utf8ByteSize_headerXml_le 1 ⟨126, 0, 1, 0, 0, 0⟩
    have links : (((manyLinks.take 10).filter (·.rid = 1)).map linkSize).sum = 1480 := by
      decide
    have areas : (getAreaes (manyLinks.take 10)).length = 1 := by decide
    unfold snapshotSize
    rw [links, areas]
    linarith
  exact ((formatAllAreaLsdbToXml_fits_iff (manyLinks.take 10) 1 ⟨126, 0, 1, 0, 0, 0⟩ 1).2
    inside).mpr room

end

end LsdbXml

end Pma
