/-!
# Why a text is no URL
-/

namespace Stairway.Url

inductive UrlError where
  | emptyHost
  | invalidPort
  | invalidIpv6
  | invalidIpv4
  | invalidDomainCharacter
  | invalidInternationalName
  | relativeWithoutBase
  deriving DecidableEq, Repr

def UrlError.message : UrlError → String
  | emptyHost => "empty host"
  | invalidPort => "invalid port number"
  | invalidIpv6 => "invalid IPv6 address"
  | invalidIpv4 => "invalid IPv4 address"
  | invalidDomainCharacter => "invalid domain character"
  | invalidInternationalName => "invalid international domain name"
  | relativeWithoutBase => "relative URL without a base"

end Stairway.Url
