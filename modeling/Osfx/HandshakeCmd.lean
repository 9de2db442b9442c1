import Osfx.Sizes
import Osfx.Lib.Numeral

/-!
# Command bytes and control frames

`osfx_handshake_cmd.h` and the builders of `osfx_handshake_cmd.c` that the dispatcher
answers with. A builder gives the bytes it writes, `none` where it returns 0.
-/

namespace Osfx

open Numeral

namespace Cmd

def dataFull : UInt8 := 63
def dataFullSec : UInt8 := 64
def dataDiff : UInt8 := 170
def dataDiffSec : UInt8 := 171
def dataHeart : UInt8 := 127
def dataHeartSec : UInt8 := 128
def idRequest : UInt8 := 1
def idAssign : UInt8 := 2
def idPoolRes : UInt8 := 4
def handshakeAck : UInt8 := 5
def handshakeNack : UInt8 := 6
def ping : UInt8 := 9
def pong : UInt8 := 10
def timeRequest : UInt8 := 11
def timeResponse : UInt8 := 12
def secureDictReady : UInt8 := 13
def secureChannelAck : UInt8 := 14

end Cmd

def cmdNormalizeData (cmd : UInt8) : UInt8 :=
  if cmd = Cmd.dataFullSec then Cmd.dataFull
  else if cmd = Cmd.dataDiffSec then Cmd.dataDiff
  else if cmd = Cmd.dataHeartSec then Cmd.dataHeart
  else cmd

def cmdSecureVariant (cmd : UInt8) : UInt8 :=
  if cmd = Cmd.dataFull then Cmd.dataFullSec
  else if cmd = Cmd.dataDiff then Cmd.dataDiffSec
  else if cmd = Cmd.dataHeart then Cmd.dataHeartSec
  else cmd

def buildNack (seq : UInt16) (reason : Bytes) (outCap : Nat) : Option Bytes :=
  if outCap < 3 ∨ 3 + reason.length > outCap then none
  else some (Cmd.handshakeNack :: beBytes 2 seq.toNat ++ reason)

def buildIdAssign (seq : UInt16) (assignedId : UInt32) (outCap : Nat) : Option Bytes :=
  if outCap < 7 then none
  else some (Cmd.idAssign :: beBytes 2 seq.toNat ++ beBytes 4 assignedId.toNat)

def buildTimeResponse (seq : UInt16) (unixTs : UInt64) (outCap : Nat) : Option Bytes :=
  if outCap < 11 then none
  else some (Cmd.timeResponse :: beBytes 2 seq.toNat ++ beBytes 8 unixTs.toNat)

def buildSecureDictReady (assignedId : UInt32) (timestampRaw : UInt64) (outCap : Nat) :
    Option Bytes :=
  if outCap < 13 then none
  else some (Cmd.secureDictReady :: beBytes 4 assignedId.toNat ++ beBytes 8 timestampRaw.toNat)

def buildSecureChannelAck (assignedId : UInt32) (outCap : Nat) : Option Bytes :=
  if outCap < 5 then none else some (Cmd.secureChannelAck :: beBytes 4 assignedId.toNat)

end Osfx
