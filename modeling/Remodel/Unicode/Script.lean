import Remodel.Unicode.CodeSet

/-!
# Scripts

The script of a code point, by the long and the short name of the script.
-/

namespace Remodel.Unicode

/-- Long name, short name and table of every script. -/
def scriptTables : List (String × String × List String) :=
  [ ("Adlam", "Adlm",
      [ "2olc 24 4 a 4 2 "]),
    ("Ahom", "Ahom",
      [ "1j40 r 2 f 4 n "]),
    ("Anatolian_Hieroglyphs", "Hluw",
      [ "1s00 g7 "]),
    ("Arabic", "Arab",
      [ "16o 5 1 6 1 e 1 3 1 w 1 a b q 1 30 1 y 28 1c 6o y 5 23 1 t 1bv4 dq 2 40 w g 34 5 1 ",
        "3r 31f v 1v 6 8 9 x 6 181s 4 1 r 1 2 1 1 2 1 1 a 1 4 1 1 1 1 6 1 4 1 1 1 1 1 1 3 1 ",
        "2 1 1 2 1 1 1 1 1 1 1 1 1 1 2 1 1 2 4 1 7 1 4 1 4 1 1 1 a 1 h 5 3 1 5 1 h 1g 2 "]),
    ("Armenian", "Armn",
      [ "10x 12 2 1e 2 3 1chv 5 "]),
    ("Avestan", "Avst",
      [ "1gqo 1i 3 7 "]),
    ("Balinese", "Bali",
      [ "5c0 25 1 1e "]),
    ("Bamum", "Bamu",
      [ "www 2g 124o ft "]),
    ("Bassa_Vah", "Bass",
      [ "1zo0 u 2 6 "]),
    ("Batak", "Batk",
      [ "5hc 1g 8 4 "]),
    ("Bengali", "Beng",
      [ "1vk 4 1 8 2 2 2 m 1 7 1 1 3 4 2 9 2 2 2 4 8 1 4 2 1 5 2 p "]),
    ("Bhaiksuki", "Bhks",
      [ "1k3k 9 1 19 1 e a t "]),
    ("Bopomofo", "Bopo",
      [ "kq 2 93t 17 34 w "]),
    ("Brahmi", "Brah",
      [ "1hq8 26 4 10 9 1 "]),
    ("Braille", "Brai",
      [ "7wg 74 "]),
    ("Buginese", "Bugi",
      [ "54w s 2 2 "]),
    ("Buhid", "Buhd",
      [ "4lc k "]),
    ("Canadian_Aboriginal", "Cans",
      [ "3y8 hs fk 1y 1ewq g "]),
    ("Carian", "Cari",
      [ "1f34 1d "]),
    ("Caucasian_Albanian", "Aghb",
      [ "1flc 1g b 1 "]),
    ("Chakma", "Cakm",
      [ "1hxc 1h 1 i "]),
    ("Cham", "Cham",
      [ "xkw 1j 9 e 2 a 2 4 "]),
    ("Cherokee", "Cher",
      [ "3vk 2e 2 6 twy 28 "]),
    ("Chorasmian", "Chrs",
      [ "1ho0 s "]),
    ("Common", "Zyyy",
      [ "0 1t q 6 q 1b 1 f 1 5 n 1 v 1 ch 13 5 5 2 k 38 1 9 1 6 1 1 1 hp 1 6 1 e 1 3 1 w 1 ",
        "4c 1 ec 1 3l 2 yh 1 b9 4 82 1 167 3 1z 2 5n 2 1 1 y5 1 d 1 7 4 1 6 1 3 2 1 lh c 2 ",
        "2f 1 b 3 b 1 f h y 1q 12 1 3 2 6 1 r 1 h 15 3 4 ii m b l ps 74 hg 2 3u e8 2m b6 l 1 ",
        "1 1 p f 8 4 4 2j 2 3 1 2i 2 43 g w 12 9 1 1c 1s v 29 1b 1 2g 4o 534 1s hkw y 2u 3 ",
        "4l a 6s 1 4g 1 az 1 e 2 g5u 2 5s a m z 1 j 1 4 43 1 1 w q 6 q b a 1 19 2 1s 7 1 7 a ",
        "5 76 3 4 19 3 9 28 d 1f 19 6c r 10o4 4 318 71 3 c4 6 n f h 2n 38 1o 6u a 13 2 1q 3 ",
        "h 8 2 7 u 4 1p 5x k c k c 2f 9 p 3r 2d 1 1z 1 2 2 1 2 2 2 4 1 c 1 1 1 7 1 1t 1 4 2 ",
        "8 1 7 1 s 1 4 1 5 1 1 3 7 1 9g 2 84 2 1e 41d 1w 24 1p jm 18 4 2s c f 2 f 1 f 1 11 a ",
        "4u 1k q 1 2 d 18 4 9 7 2 e 6 4a rd 3 h 3 d 3 62 6 c 4 1 f c 4 1k 8 a 6 14 8 u 2 c 4 ",
        "2 e 9 13 9k 8 e 2 d 3 b 3 1l 1 1 4 g 2 c 4 a 7 43 1 2v gvly 1 u 2o "]),
    ("Coptic", "Copt",
      [ "rm e 80g 38 5 7 "]),
    ("Cuneiform", "Xsux",
      [ "1kw0 pm 2u 33 1 5 b 5g "]),
    ("Cypriot", "Cprt",
      [ "1g5c 6 2 1 1 18 1 2 3 1 2 1 "]),
    ("Cypro_Minoan", "Cpmn",
      [ "1nyo 2r "]),
    ("Cyrillic", "Cyrl",
      [ "sg 3p 2 4p 4ls b 4g 1 24 1 38n w nr4 2o ham 2 18n4 1q x 1 "]),
    ("Deseret", "Dsrt",
      [ "1fcw 28 "]),
    ("Devanagari", "Deva",
      [ "1s0 29 4 f 2 q vhc w mio a "]),
    ("Dives_Akuru", "Diak",
      [ "1ji8 7 2 1 2 8 1 2 1 u 1 2 2 c 9 a "]),
    ("Dogra", "Dogr",
      [ "1jb4 1o "]),
    ("Duployan", "Dupl",
      [ "2fpc 2z 5 d 3 9 7 a 2 4 "]),
    ("Egyptian_Hieroglyphs", "Egyp",
      [ "1o1s uu a 32z "]),
    ("Elbasan", "Elba",
      [ "1fk0 14 "]),
    ("Elymaic", "Elym",
      [ "1hpc n "]),
    ("Ethiopic", "Ethi",
      [ "3k0 21 1 4 2 7 1 1 1 4 2 15 1 4 2 x 1 4 2 7 1 1 1 4 2 f 1 1l 1 4 2 1v 2 w 3 q 546 n ",
        "9 7 1 7 1 7 1 7 1 7 1 7 1 7 1 7 opu 6 2 6 2 6 9 7 1 7 1qk1 7 1 4 1 2 1 f "]),
    ("Garay", "Gara",
      [ "1h6o 12 3 t 8 2 "]),
    ("Georgian", "Geor",
      [ "3a8 12 1 1 5 1 2 17 1 4 2a8 17 2 3 37k 12 1 1 5 1 "]),
    ("Glagolitic", "Glag",
      [ "8ow 2o 2e1s 7 1 h 2 7 1 2 1 5 "]),
    ("Gothic", "Goth",
      [ "1f74 r "]),
    ("Grantha", "Gran",
      [ "1ibk 4 1 8 2 2 2 m 1 7 1 2 1 5 2 9 2 2 2 3 2 1 6 1 5 7 2 7 3 5 "]),
    ("Greek", "Grek",
      [ "og 4 1 3 2 4 1 1 4 1 1 1 1 3 1 1 1 k 1 1r e g 4yu 5 1e 5 4 5 2c 1 8w m 2 6 2 12 2 6 ",
        "2 8 1 1 1 1 1 1 1 v 2 1h 1 f 1 e 2 6 1 j 2 3 1 9 87 1 rb2 1 gyi 27 h 1 155r 1y "]),
    ("Gujarati", "Gujr",
      [ "22p 3 1 9 1 3 1 m 1 7 1 2 1 5 2 a 1 3 1 3 2 1 f 4 2 c 7 7 "]),
    ("Gunjala_Gondi", "Gong",
      [ "1kdc 6 1 2 1 11 1 2 1 6 7 a "]),
    ("Gurmukhi", "Guru",
      [ "1z5 3 1 6 4 2 2 m 1 7 1 2 1 2 1 2 2 1 1 5 4 2 2 3 3 1 7 4 1 1 7 h "]),
    ("Gurung_Khema", "Gukh",
      [ "1xq8 1m "]),
    ("Han", "Hani",
      [ "96o q 1 2h c 5y 1b 1 1 1 p 9 e 4 qs 534 1s g74 hkw a6 2 2y n48 2 c 7 sg9 wyo w 3dq ",
        "2 4ge 2 5rl f ha 1wi f2 15u 3t7 5 6ju "]),
    ("Hangul", "Hang",
      [ "3cw 74 5ym 2 75 2m 35 v 1t v nhd t hv 8mc c n 4 1d 7tw v 3 6 2 6 2 6 2 3 "]),
    ("Hanifi_Rohingya", "Rohg",
      [ "1h4w 14 8 a "]),
    ("Hanunoo", "Hano",
      [ "4kg l "]),
    ("Hatran", "Hatr",
      [ "1gbk j 1 2 5 5 "]),
    ("Hebrew", "Hebr",
      [ "13l 1j 8 r 4 6 1cfc q 1 5 1 1 1 2 1 2 1 a "]),
    ("Hiragana", "Hira",
      [ "9j5 2e 6 3 23q9 7z i 1 t 3 crx 1 "]),
    ("Imperial_Aramaic", "Armi",
      [ "1g74 m 1 9 "]),
    ("Inherited", "Zinh",
      [ "lc 34 7p 2 ck b q 1 kg 4 3ff 1a 2 c dg 3 1 d 1 7 4 1 6 1 3 2 5i 1s ek 2 5e x 309 4 ",
        "2z 2 14kl g g e r3 1 6a 1 38a 1 1138 1a 2 n f4 3 h 8 2 7 u 4 h45u 6o "]),
    ("Inscriptional_Pahlavi", "Phli",
      [ "1gtc j 5 8 "]),
    ("Inscriptional_Parthian", "Prti",
      [ "1gsg m 2 8 "]),
    ("Javanese", "Java",
      [ "xhc 26 2 a 4 2 "]),
    ("Kaithi", "Kthi",
      [ "1hts 1v a 1 "]),
    ("Kannada", "Knda",
      [ "2gw d 1 3 1 n 1 a 1 5 2 9 1 3 1 4 7 2 5 3 1 4 2 a 1 3 "]),
    ("Katakana", "Kana",
      [ "9lt 2i 2 3 6o g 5s 1b 1 2g 14b2 a 1 19 ytu 4 1 7 1 2 1 1 7z 3 1e 1 e 4 "]),
    ("Kawi", "Kawi",
      [ "1kow h 1 15 3 t "]),
    ("Kayah_Li", "Kali",
      [ "xds 1a 1 1 "]),
    ("Kharoshthi", "Khar",
      [ "1gjk 4 1 2 5 8 1 3 1 t 2 3 4 a 7 9 "]),
    ("Khitan_Small_Script", "Kits",
      [ "20o4 1 5cr d2 15 1 "]),
    ("Khmer", "Khmr",
      [ "4n4 2m 2 a 6 a di w "]),
    ("Khojki", "Khoj",
      [ "1i4g i 1 1b "]),
    ("Khudawadi", "Sind",
      [ "1i9c 1n 5 a "]),
    ("Kirat_Rai", "Krai",
      [ "205c 1m "]),
    ("Lao", "Laoo",
      [ "2v5 2 1 1 1 5 1 o 1 1 1 n 2 5 1 1 1 7 1 a 2 4 "]),
    ("Latin", "Latn",
      [ "1t q 6 q 1b 1 f 1 5 n 1 v 1 ch 13 5 55n 12 6 1d 5 4 5 d 1 1y 1t 74 a9 1 d 1 g d 3x ",
        "2 6 1 r 1 h 15 253 w o82 2u 3 2a k f mo 17 1 9 1 4 fpy 7 t6 q 6 q 1lx 6 1 16 1 9 ",
        "16it v 6 6 "]),
    ("Lepcha", "Lepc",
      [ "5j4 1k 3 f 3 3 "]),
    ("Limbu", "Limb",
      [ "4xs v 1 c 4 c 4 1 3 c "]),
    ("Linear_A", "Lina",
      [ "1fr4 8n 9 m a 8 "]),
    ("Linear_B", "Linb",
      [ "1ekg c 1 q 1 j 1 2 1 f 2 e y 3f "]),
    ("Lisu", "Lisu",
      [ "wk0 1c o8g 1 "]),
    ("Lycian", "Lyci",
      [ "1f28 t "]),
    ("Lydian", "Lydi",
      [ "1gdc q 5 1 "]),
    ("Mahajani", "Mahj",
      [ "1hzk 13 "]),
    ("Makasar", "Maka",
      [ "1ko0 p "]),
    ("Malayalam", "Mlym",
      [ "2kg d 1 3 1 1f 1 3 1 6 4 g 2 q "]),
    ("Mandaic", "Mand",
      [ "1mo s 2 1 "]),
    ("Manichaean", "Mani",
      [ "1gow 13 4 c "]),
    ("Marchen", "Marc",
      [ "1k6o w 2 m 1 e "]),
    ("Masaram_Gondi", "Gonm",
      [ "1kao 7 1 2 1 18 3 1 1 2 1 9 8 a "]),
    ("Medefaidrin", "Medf",
      [ "20cg 2j "]),
    ("Meetei_Mayek", "Mtei",
      [ "xr4 n 5l 1a 2 a "]),
    ("Mende_Kikakui", "Mend",
      [ "2oe8 5h 2 g "]),
    ("Meroitic_Cursive", "Merc",
      [ "1ggw o 4 k 2 1a "]),
    ("Meroitic_Hieroglyphs", "Mero",
      [ "1gg0 w "]),
    ("Miao", "Plrd",
      [ "20hs 23 4 1l 7 h "]),
    ("Modi", "Modi",
      [ "1iww 1x b a "]),
    ("Mongolian", "Mong",
      [ "4qo 2 2 1 1 k 6 2h 7 17 1e45 d "]),
    ("Mro", "Mroo",
      [ "1zk0 v 1 a 4 2 "]),
    ("Multani", "Mult",
      [ "1i80 7 1 1 1 4 1 f 1 b "]),
    ("Myanmar", "Mymr",
      [ "35s 4g u9s v 2p w le8 k "]),
    ("Nabataean", "Nbat",
      [ "1g8w v 8 9 "]),
    ("Nag_Mundari", "Nagm",
      [ "2nrk 16 "]),
    ("Nandinagari", "Nand",
      [ "1jmo 8 2 1a 2 b "]),
    ("New_Tai_Lue", "Talu",
      [ "51c 18 4 q 6 b 3 2 "]),
    ("Newa", "Newa",
      [ "1iio 2k 1 5 "]),
    ("Nko", "Nkoo",
      [ "1j4 1n 2 3 "]),
    ("Nushu", "Nshu",
      [ "20o1 1 cy6 b0 "]),
    ("Nyiakeng_Puachue_Hmong", "Hmnp",
      [ "2n0g 19 3 e 2 a 4 2 "]),
    ("Ogham", "Ogam",
      [ "4g0 t "]),
    ("Ol_Chiki", "Olck",
      [ "5lc 1c "]),
    ("Ol_Onal", "Onao",
      [ "2nyo 17 4 1 "]),
    ("Old_Hungarian", "Hung",
      [ "1h1c 1f d 1f 7 6 "]),
    ("Old_Italic", "Ital",
      [ "1f5s 10 9 3 "]),
    ("Old_North_Arabian", "Narb",
      [ "1gn4 w "]),
    ("Old_Permic", "Perm",
      [ "1f80 17 "]),
    ("Old_Persian", "Xpeo",
      [ "1fa8 10 4 e "]),
    ("Old_Sogdian", "Sogo",
      [ "1hj4 14 "]),
    ("Old_South_Arabian", "Sarb",
      [ "1gm8 w "]),
    ("Old_Turkic", "Orkh",
      [ "1gxs 21 "]),
    ("Old_Uyghur", "Ougr",
      [ "1hm8 q "]),
    ("Oriya", "Orya",
      [ "269 3 1 8 2 2 2 m 1 7 1 2 1 5 2 9 2 2 2 3 7 3 4 2 1 5 2 i "]),
    ("Osage", "Osge",
      [ "1fhs 10 4 10 "]),
    ("Osmanya", "Osma",
      [ "1fgg u 2 a "]),
    ("Pahawh_Hmong", "Hmng",
      [ "1zpc 1y a a 1 7 1 l 5 j "]),
    ("Palmyrene", "Palm",
      [ "1g80 w "]),
    ("Pau_Cin_Hau", "Pauc",
      [ "1juo 1l "]),
    ("Phags_Pa", "Phag",
      [ "x8g 1k "]),
    ("Phoenician", "Phnx",
      [ "1gcg s 3 1 "]),
    ("Psalter_Pahlavi", "Phlp",
      [ "1gu8 i 7 4 c 7 "]),
    ("Rejang", "Rjng",
      [ "xf4 10 b 1 "]),
    ("Runic", "Runr",
      [ "4gw 23 3 b "]),
    ("Samaritan", "Samr",
      [ "1kw 1a 2 f "]),
    ("Saurashtra", "Saur",
      [ "xa8 1y 8 c "]),
    ("Sharada", "Shrd",
      [ "1i0w 2o 1vk 8 "]),
    ("Shavian", "Shaw",
      [ "1ff4 1c "]),
    ("Siddham", "Sidd",
      [ "1itc 1i 2 12 "]),
    ("SignWriting", "Sgnw",
      [ "2l8g i4 f 5 1 f "]),
    ("Sinhala", "Sinh",
      [ "2o1 3 1 i 3 o 1 9 1 1 2 7 3 1 4 6 1 1 1 8 6 a 2 3 1fcc k "]),
    ("Sogdian", "Sogd",
      [ "1hkg 16 "]),
    ("Sora_Sompeng", "Sora",
      [ "1hw0 p 7 a "]),
    ("Soyombo", "Soyo",
      [ "1jrk 2b "]),
    ("Sundanese", "Sund",
      [ "5fk 1s 74 8 "]),
    ("Sunuwar", "Sunu",
      [ "1k1s y e a "]),
    ("Syloti_Nagri", "Sylo",
      [ "x6o 19 "]),
    ("Syriac", "Syrc",
      [ "1ds e 1 1o 2 3 7k b "]),
    ("Tagalog", "Tglg",
      [ "4jk m 9 1 "]),
    ("Tagbanwa", "Tagb",
      [ "4m8 d 1 3 1 2 "]),
    ("Tai_Le", "Tale",
      [ "500 u 2 5 "]),
    ("Tai_Tham", "Lana",
      [ "55s 1r 1 t 2 b 6 a 6 e "]),
    ("Tai_Viet", "Tavt",
      [ "xog 1v o 5 "]),
    ("Takri", "Takr",
      [ "1j0g 1m 6 a "]),
    ("Tamil", "Taml",
      [ "29u 2 1 6 3 3 1 4 3 2 1 1 1 2 3 2 3 3 3 c 4 5 3 3 1 4 2 1 6 1 e l 1ih1 1e d 1 "]),
    ("Tangsa", "Tnsa",
      [ "1zlc 27 1 a "]),
    ("Tangut", "Tang",
      [ "20o0 1 v 5c0 e8 v 2p 37 "]),
    ("Telugu", "Telu",
      [ "2dc d 1 3 1 n 1 g 2 9 1 3 1 4 7 2 1 3 1 2 2 4 2 a 7 9 "]),
    ("Thaana", "Thaa",
      [ "1hc 1e "]),
    ("Thai", "Thai",
      [ "2rl 1m 5 s "]),
    ("Tibetan", "Tibt",
      [ "2yo 20 1 10 4 13 1 10 1 f 1 7 4 2 "]),
    ("Tifinagh", "Tfng",
      [ "8xc 1k 7 2 e 1 "]),
    ("Tirhuta", "Tirh",
      [ "1im8 20 8 a "]),
    ("Todhri", "Todr",
      [ "1fpc 1g "]),
    ("Toto", "Toto",
      [ "2nbk v "]),
    ("Tulu_Tigalari", "Tutg",
      [ "1if4 a 1 1 2 1 1 12 1 a 1 1 2 1 1 4 1 a 1 2 8 2 "]),
    ("Ugaritic", "Ugar",
      [ "1f9c u 1 1 "]),
    ("Vai", "Vaii",
      [ "wlc 8c "]),
    ("Vithkuqi", "Vith",
      [ "1fn4 b 1 f 1 7 1 2 1 b 1 f 1 7 1 2 "]),
    ("Wancho", "Wcho",
      [ "2ncw 1m 5 1 "]),
    ("Warang_Citi", "Wara",
      [ "1jfk 2b c 1 "]),
    ("Yezidi", "Yezi",
      [ "1hfk 16 1 3 2 2 "]),
    ("Yi", "Yiii",
      [ "vls wd 3 1j "]),
    ("Zanabazar_Square", "Zanb",
      [ "1jpc 20 "])]

/-- The code points of a script, with the two names under which it is known. -/
def scripts : List (String × String × CodeSet) :=
  scriptTables.map fun (long, short, table) => (long, short, CodeSet.ofGaps table)

end Remodel.Unicode
