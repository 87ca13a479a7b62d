import Thrussh.Encoding

/-!
# Message numbers

The constants of `msg.rs`, under the source's names.
-/

namespace Thrussh.msg

def DISCONNECT : UInt8 := 1
def SERVICE_REQUEST : UInt8 := 5
def SERVICE_ACCEPT : UInt8 := 6
def KEXINIT : UInt8 := 20
def NEWKEYS : UInt8 := 21
def KEX_ECDH_INIT : UInt8 := 30
def KEX_ECDH_REPLY : UInt8 := 31
def USERAUTH_REQUEST : UInt8 := 50
def USERAUTH_FAILURE : UInt8 := 51
def USERAUTH_SUCCESS : UInt8 := 52
def USERAUTH_BANNER : UInt8 := 53
def USERAUTH_PK_OK : UInt8 := 60
def USERAUTH_INFO_REQUEST : UInt8 := 60
def USERAUTH_INFO_RESPONSE : UInt8 := 61
def GLOBAL_REQUEST : UInt8 := 80
def REQUEST_SUCCESS : UInt8 := 81
def REQUEST_FAILURE : UInt8 := 82
def CHANNEL_OPEN : UInt8 := 90
def CHANNEL_OPEN_CONFIRMATION : UInt8 := 91
def CHANNEL_OPEN_FAILURE : UInt8 := 92
def CHANNEL_WINDOW_ADJUST : UInt8 := 93
def CHANNEL_DATA : UInt8 := 94
def CHANNEL_EXTENDED_DATA : UInt8 := 95
def CHANNEL_EOF : UInt8 := 96
def CHANNEL_CLOSE : UInt8 := 97
def CHANNEL_REQUEST : UInt8 := 98
def CHANNEL_SUCCESS : UInt8 := 99
def CHANNEL_FAILURE : UInt8 := 100

end Thrussh.msg
