import Mathlib.Init

/-!
# Error numbers of system calls

The positive numbers of `syscall_numbers.h`; kernel functions return them
negated.
-/

namespace HnxKernel

def sysEperm : Int := 1

def sysEnoent : Int := 2

def sysEio : Int := 5

def sysEnoexec : Int := 8

def sysEbadf : Int := 9

def sysEchild : Int := 10

def sysEnomem : Int := 12

def sysEfault : Int := 14

def sysEexist : Int := 17

def sysEnotdir : Int := 20

def sysEisdir : Int := 21

def sysEinval : Int := 22

def sysEmfile : Int := 24

def sysEnametoolong : Int := 36

end HnxKernel
