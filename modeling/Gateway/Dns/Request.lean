import Gateway.Lib.Buf

/-!
# The DNS responder: `parse_dns_name`, `parse_dns_request`, one turn of `dns_server_task`

Model of `components/dns_server/dns_server.c`. Pointers into an array are offsets, and every
access is checked (`Gateway.Lib.Buf`), so running outside an array is a `Fault` and not a value.

* `parseDnsName` (`dns_server.c:57-83`) is the `do … while` over the labels. Lean needs
  termination, so the loop has a `fuel` argument; running out of it is a fault too, and
  `Name.lean` shows that it never does. `char` is unsigned on the ESP32-C3, so a length byte is
  `0 … 255`.
* `parseDnsRequest` (`dns_server.c:86-153`) takes the pair `(req, req_len)` as the byte list
  `req`. The header fields are read and written in the CPU's little-endian order, as the packed
  struct does. `ESP_LOGD` is compiled out (`CONFIG_LOG_MAXIMUM_LEVEL` is 3, info); `ESP_LOGE` is
  not, so the string it prints is scanned for its terminator.
* `cur_qd_ptr` and `cur_ans_ptr` are set once and never advanced: every round of the loop parses
  the first question and writes the first answer slot.
* `esp_netif_get_ip_info` fails when there is no `WIFI_AP_DEF` interface, and then leaves
  `ip_info`, an uninitialised local, as it is; the error code is ignored. The interface's address
  is `netif`, the previous content of the local is `ipInfo`. An address is the four bytes of the
  32-bit `ip.addr` in memory order, which is network order.
-/

namespace Gateway.Dns

open Gateway.Lib

def dnsMaxLen : Nat := 256

def opcodeMask : BitVec 16 := 0x7800#16

def qrFlag : BitVec 16 := 0x80#16

def qdTypeA : BitVec 16 := 0x0001#16

def ansTtlSec : Nat := 300

/-- `sizeof(dns_header_t)`. -/
def headerLen : Nat := 12

/-- `sizeof(dns_answer_t)`, packed. -/
def answerLen : Nat := 16

/-- `sizeof(name)` in `parse_dns_request`, passed as `parsed_name_max_len`. -/
def nameMaxLen : Nat := 128

/-- The `WIFI_AP_DEF` address, four bytes in network order. -/
structure Ip4 where
  o0 : Byte
  o1 : Byte
  o2 : Byte
  o3 : Byte
  deriving DecidableEq, Repr

def Ip4.octets (a : Ip4) : List Byte := [a.o0, a.o1, a.o2, a.o3]

/-! ## `parse_dns_name` -/

/-- The `do … while` loop of `parse_dns_name`. `label` and `nameItr` are the two cursors. The
result is `none` for `NULL`, else the offset just after the name. -/
def parseDnsNameLoop {n m : Nat} (raw : Buf n) (parsedNameMaxLen : Nat) :
    Nat → (label nameItr nameLen : Nat) → Buf m → Except Fault (Option Nat × Buf m)
  | 0, _, _, _, _ => .error .outOfFuel
  | fuel + 1, label, nameItr, nameLen, parsedName => do
    let subNameLen := (← raw.load8 label).toNat
    -- `len + 1` since a `'.'` is added
    let nameLen := nameLen + (subNameLen + 1)
    if parsedNameMaxLen < nameLen then return (none, parsedName)
    let sub ← raw.load (label + 1) subNameLen
    let parsedName ← parsedName.store nameItr sub
    let parsedName ← parsedName.store (nameItr + subNameLen) [0x2E]
    let nameItr := nameItr + (subNameLen + 1)
    let label := label + (subNameLen + 1)
    if (← raw.load8 label) ≠ 0 then
      parseDnsNameLoop raw parsedNameMaxLen fuel label nameItr nameLen parsedName
    else
      -- the terminator replaces the last `'.'`
      let parsedName ← parsedName.store (nameLen - 1) [0]
      return (some (label + 1), parsedName)

/-- `parse_dns_name(raw_name, parsed_name, parsed_name_max_len)`. A round adds at least one to
`name_len`, so `parsed_name_max_len + 1` rounds are enough. -/
def parseDnsName {n m : Nat} (raw : Buf n) (rawName : Nat) (parsedName : Buf m)
    (parsedNameMaxLen : Nat) : Except Fault (Option Nat × Buf m) :=
  parseDnsNameLoop raw parsedNameMaxLen (parsedNameMaxLen + 1) rawName 0 0 parsedName

/-! ## `parse_dns_request` -/

/-- The `%s` of `ESP_LOGE`: read from `i` on up to the first zero byte. -/
def logString {n : Nat} (b : Buf n) : Nat → Nat → Except Fault Unit
  | 0, _ => .error .outOfFuel
  | fuel + 1, i => do
    if (← b.load8 i) = 0 then return () else logString b fuel (i + 1)

/-- `esp_netif_get_ip_info(esp_netif_get_handle_from_ifkey("WIFI_AP_DEF"), &ip_info)`. -/
def espNetifGetIpInfo (netif : Option Ip4) (ipInfo : Ip4) : Ip4 := netif.getD ipInfo

/-- The 16 bytes of a packed `dns_answer_t`. -/
def answerBytes (ptrOffset qdType qdClass : BitVec 16) (ip : Ip4) : List Byte :=
  let net (x : BitVec 16) : List Byte := [loByte (htons x), hiByte (htons x)]
  net ptrOffset ++ net qdType ++ net qdClass
    -- `htonl(ANS_TTL_SEC)`: most significant byte first
    ++ [BitVec.ofNat 8 (ansTtlSec >>> 24), BitVec.ofNat 8 (ansTtlSec >>> 16),
        BitVec.ofNat 8 (ansTtlSec >>> 8), BitVec.ofNat 8 ansTtlSec]
    ++ net 4#16 ++ ip.octets

/-- The question loop, with `k` rounds left: whether it ran to its end (`false` is its
`return -1`), and the reply buffer. -/
def answerLoop (netif : Option Ip4) (ipInfo : Ip4) (reqLen : Nat) :
    Nat → Buf dnsMaxLen → Buf nameMaxLen → Except Fault (Bool × Buf dnsMaxLen)
  | 0, reply, _ => return (true, reply)
  | k + 1, reply, name => do
    let curAnsPtr := reqLen
    let curQdPtr := headerLen
    let (nameEndPtr, name) ← parseDnsName reply curQdPtr name nameMaxLen
    match nameEndPtr with
    | none =>
      logString reply (dnsMaxLen + 1) curQdPtr
      return (false, reply)
    | some nameEndPtr =>
      let qdType := ntohs (← reply.load16 nameEndPtr)
      let qdClass := ntohs (← reply.load16 (nameEndPtr + 2))
      let reply ←
        if qdType = qdTypeA then
          reply.store curAnsPtr (answerBytes (0xC000#16 ||| BitVec.ofNat 16 curQdPtr) qdType
            qdClass (espNetifGetIpInfo netif ipInfo))
        else pure reply
      answerLoop netif ipInfo reqLen k reply name

/-- `parse_dns_request(req, req_len, dns_reply, dns_reply_max_len)` with the caller's 256-byte
reply buffer: the returned `int` and the reply buffer. `name` is the uninitialised local. -/
def parseDnsRequest (netif : Option Ip4) (ipInfo : Ip4) (req : List Byte)
    (dnsReply : Buf dnsMaxLen) (name : Buf nameMaxLen) : Except Fault (Int × Buf dnsMaxLen) := do
  if dnsMaxLen < req.length then return (-1, dnsReply)
  -- `memset`, `memcpy`
  let reply ← dnsReply.store 0 (List.replicate dnsMaxLen 0)
  let reply ← reply.store 0 req
  -- not a standard query
  if (← reply.load16 2) &&& opcodeMask ≠ 0 then return (0, reply)
  let reply ← reply.store16 2 ((← reply.load16 2) ||| qrFlag)
  let qdCount := ntohs (← reply.load16 4)
  let reply ← reply.store16 6 (htons qdCount)
  let replyLen := qdCount.toNat * answerLen + req.length
  if dnsMaxLen < replyLen then return (-1, reply)
  let (answered, reply) ← answerLoop netif ipInfo req.length qdCount.toNat reply name
  if !answered then return (-1, reply)
  return (replyLen, reply)

/-! ## One turn of `dns_server_task` -/

/-- `sizeof(rx_buffer)`. -/
def rxLen : Nat := 128

/-- The locals of `dns_server_task` and of the call it makes, with whatever they hold. -/
structure Locals where
  rxBuffer : Buf rxLen
  reply : Buf dnsMaxLen
  name : Buf nameMaxLen
  ipInfo : Ip4

/-- A turn of the receive loop (`dns_server.c:189-226`) on the datagram `d`: `recvfrom` keeps at
most `sizeof(rx_buffer) - 1` bytes of it. The result is what `sendto` sends, if it is called. -/
def serveDatagram (netif : Option Ip4) (loc : Locals) (d : List Byte) :
    Except Fault (Option (List Byte)) := do
  let got := d.take (rxLen - 1)
  let len := got.length
  let rx ← loc.rxBuffer.store 0 got
  let rx ← rx.store len [0]
  let (replyLen, reply) ← parseDnsRequest netif loc.ipInfo (← rx.load 0 len) loc.reply loc.name
  if replyLen ≤ 0 then return none
  return some (← reply.load 0 replyLen.toNat)

/-! ## A plain query -/

/-- The softAP address, `192.168.4.1`. -/
def apIp : Ip4 := ⟨192, 168, 4, 1⟩

/-- Locals that hold zeros. -/
def Locals.zero : Locals :=
  ⟨Buf.fill rxLen 0, Buf.fill dnsMaxLen 0, Buf.fill nameMaxLen 0, ⟨0, 0, 0, 0⟩⟩

/-- A query for the name `a`: id 1, one question of type A and class IN. -/
def queryA : List Byte :=
  [0, 1, 0, 0, 0, 1, 0, 0, 0, 0, 0, 0, 1, 0x61, 0, 0, 1, 0, 1]

/-- The answer slot, for class IN. -/
def slotA : List Byte := [0xC0, 0x0C, 0, 1, 0, 1, 0, 0, 1, 44, 0, 4, 192, 168, 4, 1]

/-- The responder's own reply to `queryA`. -/
def replyA : List Byte :=
  [0, 1, 0x80, 0, 0, 1, 0, 1, 0, 0, 0, 0, 1, 0x61, 0, 0, 1, 0, 1] ++ slotA

end Gateway.Dns
