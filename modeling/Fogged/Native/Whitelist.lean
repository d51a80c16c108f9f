import Fogged.Native.ClientAuth
import Fogged.Native.IpAddr

/-!
# Split tunnelling in orcax-connect (`orcax/client/src/whitelist.rs`, `main.rs`)

Which destinations are connected to directly, past the tunnel: names by suffix,
addresses by network. `main` builds the list from the command line, and every
SOCKS5 handler asks it before it opens a stream. Networks are those of the crate `ipnet`, which
is a parameter.
-/

namespace Fogged.Native

open Fogged.Native.Handshake Fogged.Native.ClientAuth

/-- `ipnet::IpNet`, known by the addresses that it contains. -/
abbrev IpNet := IpAddr → Bool

/-- Resolver over domains, user-provided extras and networks. -/
structure Whitelist where
  domains : List Text
  cidrs : List IpNet

namespace Whitelist

/-! ## Text -/

/-- `u8::to_ascii_lowercase`. -/
def lowerByte (b : UInt8) : UInt8 := if 0x41 ≤ b ∧ b ≤ 0x5A then b + 0x20 else b

/-- `str::to_ascii_lowercase`. -/
def toAsciiLowercase (text : Text) : Text := text.map lowerByte

/-- The characters of Unicode property `White_Space`, in UTF-8. -/
def whiteSpace : List Text :=
  [[0x09], [0x0A], [0x0B], [0x0C], [0x0D], [0x20], [0xC2, 0x85], [0xC2, 0xA0], [0xE1, 0x9A, 0x80],
    [0xE2, 0x80, 0x80], [0xE2, 0x80, 0x81], [0xE2, 0x80, 0x82], [0xE2, 0x80, 0x83],
    [0xE2, 0x80, 0x84], [0xE2, 0x80, 0x85], [0xE2, 0x80, 0x86], [0xE2, 0x80, 0x87],
    [0xE2, 0x80, 0x88], [0xE2, 0x80, 0x89], [0xE2, 0x80, 0x8A], [0xE2, 0x80, 0xA8],
    [0xE2, 0x80, 0xA9], [0xE2, 0x80, 0xAF], [0xE2, 0x81, 0x9F], [0xE3, 0x80, 0x80]]

/-- Strip characters of `chars` from the front, at most `fuel` of them. -/
def stripFront (chars : List Text) : Nat → Text → Text
  | 0, text => text
  | fuel + 1, text =>
    match chars.find? (·.isPrefixOf text) with
    | none => text
    | some c => stripFront chars fuel (text.drop c.length)

/-- `str::trim`. A character of the text is at least one byte, so its length is fuel
    enough. -/
def trim (text : Text) : Text :=
  let text := stripFront whiteSpace text.length text
  (stripFront (whiteSpace.map List.reverse) text.length text.reverse).reverse

/-! ## The list -/

/-- Default Russian domains bypassed when `--whitelist` is enabled. -/
def defaultDomains : List Text := [
  -- Social
  "vk.com", "vk.me", "vkontakte.ru", "vk.cc", "userapi.com",
  "ok.ru", "odnoklassniki.ru", "mycdn.me",
  -- Email
  "mail.ru", "list.ru", "inbox.ru", "bk.ru",
  -- Yandex
  "yandex.ru", "yandex.com", "yandex.net", "ya.ru", "yandex.st", "yastatic.net",
  -- Banks
  "sberbank.ru", "online.sberbank.ru", "sber.ru", "sbrf.ru",
  "tinkoff.ru", "tbank.ru",
  "alfabank.ru", "alfa-bank.ru",
  "vtb.ru", "vtb24.ru",
  "gazprombank.ru", "raiffeisen.ru", "open.ru", "psb.ru",
  -- Government
  "gosuslugi.ru", "mos.ru", "gov.ru", "kremlin.ru", "nalog.ru", "nalog.gov.ru",
  -- News
  "ria.ru", "tass.ru", "rt.com", "rbc.ru", "kommersant.ru", "lenta.ru",
  -- E-commerce / delivery
  "wildberries.ru", "wb.ru", "ozon.ru", "ozone.ru", "avito.ru", "yandex.market",
  "lamoda.ru", "dns-shop.ru", "citilink.ru",
  -- Streaming
  "rutube.ru", "dzen.ru", "kinopoisk.ru", "okko.tv", "ivi.ru",
  -- Telecom
  "megafon.ru", "mts.ru", "beeline.ru", "tele2.ru", "rostelecom.ru",
  -- Corporate
  "gazprom.ru", "rosneft.ru", "sibur.ru", "lukoil.ru"].map ascii

/-- Major Russian service CIDRs. -/
def defaultCidrs : List Text := [
  -- Yandex
  "5.45.192.0/18", "5.255.192.0/18", "37.9.64.0/18", "37.140.128.0/18",
  "77.88.0.0/18", "87.250.224.0/19", "93.158.128.0/18", "95.108.128.0/17",
  "141.8.128.0/18", "178.154.128.0/18", "213.180.192.0/19",
  -- VK (Mail.ru group)
  "87.240.128.0/18", "87.240.190.0/24", "95.213.0.0/16",
  "185.225.76.0/22", "185.32.184.0/22",
  "95.163.32.0/19", "94.100.176.0/20", "217.69.128.0/20",
  -- Sberbank / SberTech
  "194.186.207.0/24", "195.218.190.0/23", "213.171.32.0/19",
  -- MTS
  "213.87.0.0/16", "95.106.0.0/17",
  -- Megafon
  "83.149.0.0/16", "188.130.0.0/17",
  -- Beeline / VimpelCom
  "85.140.0.0/16", "213.234.192.0/19",
  -- Rostelecom
  "81.23.0.0/17", "195.98.64.0/19",
  -- Gosuslugi (Rostelecom-hosted)
  "89.169.16.0/24", "194.54.14.0/24"].map ascii

/-- One entry of the extras, if it is well formed and new. -/
def addExtra (domains : List Text) (entry : Text) : List Text :=
  let e := toAsciiLowercase (trim entry)
  if e ≠ [] ∧ 0x2E ∈ e ∧ ¬ domains.contains e then domains ++ [e] else domains

/-- Build a whitelist from the defaults and a comma-separated list of extras. `fromStr` is
    `IpNet::from_str`. -/
def new (fromStr : Text → Option IpNet) (extra : Option Text) : Whitelist :=
  let domains := defaultDomains.map toAsciiLowercase
  let domains :=
    match extra with
    | none => domains
    | some s => (s.splitOn 0x2C).foldl addExtra domains
  { domains, cidrs := defaultCidrs.filterMap fromStr }

/-- IP-only variant. -/
def matchesIp (w : Whitelist) (ip : IpAddr) : Bool := w.cidrs.any (· ip)

end Whitelist

/-- True when the destination should bypass the VPN. -/
def Whitelist.matches (w : Whitelist) (host : Text) : Bool :=
  match IpAddr.parse host with
  | some ip => w.matchesIp ip
  | none =>
    let host := Whitelist.toAsciiLowercase host
    w.domains.any fun d => host = d ∨ (ascii "." ++ d).isSuffixOf host

namespace Whitelist

/-! ## Use -/

/-- What `main` makes of its arguments: `None` means the feature is disabled. -/
def setup (fromStr : Text → Option IpNet) (args : List Text) : Option Whitelist :=
  let whitelistEnabled := args.any (· = ascii "--whitelist")
  let whitelistExtra := arg args (ascii "--whitelist-extra")
  if whitelistEnabled then some (new fromStr whitelistExtra) else none

/-- What every SOCKS5 handler asks before it opens a stream. -/
def bypasses (wl : Option Whitelist) (host : Text) : Bool :=
  match wl with
  | some wl => wl.matches host
  | none => false

end Whitelist

end Fogged.Native
